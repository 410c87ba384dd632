import EnumInline.FilePattern.Match
import EnumInline.FilePattern.Read
import EnumInline.FileTree.Lookup
import EnumInline.Path.Lexical

/-!
Finding the source files of a project: the files below a directory whose path from there fits a pattern.
Directories with certain names are left out with all they hold, and links below the directory are neither
followed nor listed.
-/

namespace EnumInline.Source

/-- The names of directories that are left out unless others are given. -/
def defaultExcludes : List String := ["node_modules", ".git", "dist", "build", "target"]

/-- The pattern that source files fit unless another is given. -/
def defaultPattern : String := "**/*.\x7bts,tsx,mts,cts,vue,svelte\x7d"

def readPattern (start pattern : String) : Except Failure FilePattern :=
  (FilePattern.read pattern).mapError fun cause => .config start (.badPattern pattern cause)

def fits (pattern : FilePattern) (names : List String) : Bool :=
  pattern.accepts (Text.onChars Path.withSlashes ("/".intercalate names))

/-- The path from `place` of a file that is gathered: one below it that fits the pattern and that no
directory on the way keeps out. -/
def gathered? (tree : FileTree) (pattern : FilePattern) (excludes : List String) (place : Place)
    (found : Place × Entry) : Option (List String) :=
  match found.2 with
  | .file _ =>
      let names := found.1.drop place.length
      if place.isPrefixOf found.1 && tree.isWay place names &&
          !names.dropLast.any excludes.contains && fits pattern names then some names
      else none
  | _ => none

def gatherBelow (tree : FileTree) (pattern : FilePattern) (excludes : List String) (place : Place) :
    List (List String) :=
  tree.entries.toList.filterMap (gathered? tree pattern excludes place)

/-- The paths of the source files below the directory `start`, in their order. If `start` is a file, it is
the only one. -/
def gather (tree : FileTree) (start pattern : String) (excludes : List String) :
    Except Failure (List String) := do
  let pattern ← readPattern start pattern
  let place ← (tree.locate false start).mapError (Failure.io start)
  match tree.get? place with
  | some .directory =>
      .ok <| (gatherBelow tree pattern excludes place).map fun names =>
        Path.join start ("/".intercalate names)
  | _ => .ok (if !tree.isLink start && fits pattern [] then [start] else [])

end EnumInline.Source
