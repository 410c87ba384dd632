import EnumInline.Resolution.PathMapping

/-!
The settings of a project that say what the specifier of an import means.
-/

namespace EnumInline

structure Aliases where
  /-- The mappings in the order in which they are tried. -/
  mappings : List PathMapping
  /-- The directory in which specifiers without a path are looked for. -/
  baseUrl : Option String
  deriving DecidableEq, Repr

def Aliases.empty : Aliases := ⟨[], none⟩

end EnumInline
