import EnumInline.TypeScript.Syntax

/-!
Statements through which a name of one module becomes visible in another. Imports and exports of a whole
module under one name are left out: nothing can be followed through them.
-/

namespace EnumInline

open TypeScript

/-- One name of an `import` statement. The default export is imported under the name `default`. -/
structure ImportedName where
  imported : String
  localName : String
  deriving DecidableEq, Repr

structure ImportStatement where
  source : String
  names : List ImportedName
  deriving DecidableEq, Repr

inductive ExportStatement where
  /-- The declaration of an enum that exports it. -/
  | declared (name : String)
  /-- A name of the same module, given to other modules as `exported`. -/
  | ofLocal (localName exported : String)
  /-- A name that `source` exports, passed on as `exported`. -/
  | reexport (source imported exported : String)
  /-- All names that `source` exports, apart from its default. -/
  | star (source : String)
  deriving DecidableEq, Repr

namespace ImportStatement

/-- An import without names is none. -/
def ofItem? : Item → Option ImportStatement
  | .importNames source names =>
      if names.isEmpty then none
      else some ⟨source, names.map fun pair => ⟨pair.name, pair.newName⟩⟩
  | _ => none

def ofItems (items : List Item) : List ImportStatement := items.filterMap ofItem?

end ImportStatement

namespace ExportStatement

private def ofPair (source : Option String) (pair : Renaming) : ExportStatement :=
  match source with
  | some source => .reexport source pair.name pair.newName
  | none => .ofLocal pair.name pair.newName

/-- The names that a statement gives to other modules. -/
def ofItem : Item → List ExportStatement
  | .enum true declaration => if declaration.isConst then [.declared declaration.name] else []
  | .exportNames source names => names.map (ofPair source)
  | .exportDefault (.name text) => [.ofLocal text "default"]
  | .exportAll source => [.star source]
  | _ => []

def ofItems (items : List Item) : List ExportStatement := items.flatMap ofItem

end ExportStatement

end EnumInline
