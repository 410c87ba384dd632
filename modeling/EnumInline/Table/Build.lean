import EnumInline.Enum.Evaluation
import EnumInline.Table.Basic
import EnumInline.Text.PlainName

/-!
The table of a project. A file can write the members of an enum under the name by which it knows the
enum: its own name if the file declares it, the imported name otherwise. Only members with a plain name
can be written after a point.
-/

namespace EnumInline.ReplacementTable

/-- The access to a member of the enum that a file knows under a name. -/
def token (name member : String) : String := name ++ "." ++ member

/-- Adds the members of an enum under the name by which a file knows it. -/
def addDeclaration (values : Enum.Values) (entries : Entries) (name : String) (key : DeclarationKey)
    (declaration : Enum.Declaration) : Entries :=
  (values.membersOf key declaration).foldl
    (fun entries (member, value) =>
      if Text.isPlainName member then entries.insert (token name member) value.text else entries)
    entries

private def addKnown (index : Enum.Index) (values : Enum.Values) (entries : Entries)
    (known : String × DeclarationKey) : Entries :=
  match index[known.2]? with
  | none => entries
  | some declaration => addDeclaration values entries known.1 known.2 declaration

/-- The names of enums that a file declares itself. -/
def ownNames (module : SourceModule) : List (String × DeclarationKey) :=
  module.enums.map fun declaration => (declaration.name, ⟨module.id, declaration.name⟩)

/-- The entries of a file: those of its own enums if `inlineLocal` holds, then those of its imports, which
win over them. -/
def entriesOf (index : Enum.Index) (bindings : BindingGraph) (values : Enum.Values)
    (inlineLocal : Bool) (module : SourceModule) : Entries :=
  let own := if inlineLocal then ownNames module else []
  (own ++ bindings.importsOf module.id).foldl (addKnown index values) ∅

/-- The table of a project. Files without entries are left out. -/
def build (index : Enum.Index) (bindings : BindingGraph) (values : Enum.Values)
    (inlineLocal : Bool) (modules : List SourceModule) : ReplacementTable :=
  modules.foldl
    (fun table module =>
      let entries := entriesOf index bindings values inlineLocal module
      if entries.isEmpty then table else table.insert (ModuleId.tableKey module.path) entries) ∅

end EnumInline.ReplacementTable
