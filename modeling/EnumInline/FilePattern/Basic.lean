/-!
Patterns for the paths of files. A pattern is matched against the bytes of a path, and a single star or
question mark stands for nothing that holds a slash.
-/

namespace EnumInline.FilePattern

inductive Part where
  | literal (c : Char)
  /-- Any byte but a slash. -/
  | one
  /-- Any number of bytes without a slash. -/
  | run
  /-- Any number of directories at the start of a path. -/
  | outerDirectories
  /-- Any number of directories between two slashes. -/
  | innerDirectories
  /-- Everything below a directory. -/
  | inside
  /-- A byte that is in one of the ranges, or in none of them if `negated` holds. -/
  | oneOf (negated : Bool) (ranges : List (Char × Char))
  /-- What one of the branches stands for. Branches without text are left out. -/
  | group (branches : List (List Part))
  deriving Repr, Inhabited

end EnumInline.FilePattern

namespace EnumInline

structure FilePattern where
  parts : List FilePattern.Part

end EnumInline
