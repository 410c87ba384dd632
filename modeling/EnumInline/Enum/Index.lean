import EnumInline.Enum.Declaration
import EnumInline.Key
import EnumInline.Source.Module

/-!
All declarations of a project by module and name. Of declarations with one key, the last counts.
-/

namespace EnumInline.Enum

abbrev Index := Std.ExtTreeMap DeclarationKey Declaration

namespace Index

/-- The declarations of one module under their keys. -/
def entriesOf (module : SourceModule) : List (DeclarationKey × Declaration) :=
  module.enums.map fun declaration => (⟨module.id, declaration.name⟩, declaration)

def ofModules (modules : List SourceModule) : Index :=
  (modules.flatMap entriesOf).foldl (fun index (key, declaration) => index.insert key declaration) ∅

end Index

end EnumInline.Enum
