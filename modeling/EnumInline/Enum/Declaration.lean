import EnumInline.Enum.Initializer

/-!
Declarations of constant enums at the top of a module.
-/

namespace EnumInline.Enum

structure Member where
  name : String
  initializer : Initializer
  deriving DecidableEq, Repr

structure Declaration where
  name : String
  /-- Whether the declaration itself exports the enum. -/
  isExported : Bool
  members : List Member
  deriving DecidableEq, Repr

namespace Declaration

def hasMember (declaration : Declaration) (name : String) : Bool :=
  declaration.members.any (·.name == name)

def ofItem? : TypeScript.Item → Option Declaration
  | .enum exported syntaxTree =>
      if syntaxTree.isConst then
        some ⟨syntaxTree.name, exported,
          syntaxTree.members.map fun member => ⟨member.name, .ofExpr? member.value⟩⟩
      else none
  | _ => none

/-- The declarations of a module, in the order of its statements. -/
def ofItems (items : List TypeScript.Item) : List Declaration := items.filterMap ofItem?

end Declaration

end EnumInline.Enum
