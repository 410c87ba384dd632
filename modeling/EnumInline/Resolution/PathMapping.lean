import EnumInline.Path.Lexical

/-!
Aliases of specifiers. A pattern holds at most one star that stands for any text, and each of its targets
takes that text over.
-/

namespace EnumInline

open Text

structure PathMapping where
  pattern : String
  /-- The files that the pattern may stand for, in the order in which they are tried. -/
  targets : List String
  deriving DecidableEq, Repr

namespace PathMapping

/-- A mapping whose pattern is written with white space around it or with backslashes. -/
def ofPattern (pattern : String) (targets : List String) : PathMapping :=
  ⟨onChars (fun chars => Path.withSlashes (trim chars)) pattern, targets⟩

/-- The parts of the pattern before and after its first star, if it has one. -/
def parts? (mapping : PathMapping) : Option (List Char × List Char) :=
  cutAt? '*' mapping.pattern.toList

def isWildcard (mapping : PathMapping) : Bool := mapping.parts?.isSome

/-- The text for which the star stands in a specifier; empty for a pattern without a star. -/
def captured? (mapping : PathMapping) (specifier : String) : Option (List Char) :=
  match mapping.parts? with
  | none => if mapping.pattern = specifier then some [] else none
  | some (before, after) => (dropStart? before specifier.toList).bind (dropEnd? after)

/-- The number of bytes of the pattern that stand for themselves. -/
def specificity (mapping : PathMapping) : Nat :=
  match mapping.parts? with
  | none => mapping.pattern.utf8ByteSize
  | some (before, after) =>
      (String.ofList before).utf8ByteSize + (String.ofList after).utf8ByteSize

/-- A target with the captured text in the place of its first star. -/
def fill (captured : List Char) (target : String) : String :=
  onChars (fun chars =>
    match cutAt? '*' chars with
    | none => chars
    | some (before, after) => before ++ captured ++ after) target

/-- The files that a specifier stands for. -/
def substitute (mapping : PathMapping) (captured : List Char) : List String :=
  mapping.targets.map (fill captured)

/-- Whether a mapping is tried before another: patterns without a star come first, then the more specific
ones, then the order of their text decides. -/
def precedes (a b : PathMapping) : Bool :=
  if a.isWildcard != b.isWildcard then !a.isWildcard
  else if a.specificity != b.specificity then b.specificity < a.specificity
  else a.pattern ≤ b.pattern

/-- The mappings in the order in which they are tried. -/
def sort (mappings : List PathMapping) : List PathMapping := mappings.mergeSort precedes

end PathMapping

end EnumInline
