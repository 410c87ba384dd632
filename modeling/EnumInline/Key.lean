import Std.Data.ExtTreeMap

/-!
Names that identify things across modules: declarations, their members, and the bindings through which
other modules see them. Each kind is ordered by its parts from left to right.
-/

namespace EnumInline

structure DeclarationKey where
  module : String
  name : String
  deriving DecidableEq, Repr, Inhabited

namespace DeclarationKey

instance : Ord DeclarationKey where
  compare := compareLex (compareOn module) (compareOn name)

instance : Std.TransOrd DeclarationKey :=
  inferInstanceAs (Std.TransCmp (compareLex (compareOn module) (compareOn name)))

instance : Std.LawfulEqOrd DeclarationKey where
  eq_of_compare {a b} h := by
    have h : (compareLex (compareOn module) (compareOn name)) a b = .eq := h
    obtain ⟨sameModule, sameName⟩ := compareLex_eq_eq.1 h
    cases a
    cases b
    simp_all [compareOn]

def text (key : DeclarationKey) : String := key.module ++ "#" ++ key.name

end DeclarationKey

structure MemberKey where
  declaration : DeclarationKey
  member : String
  deriving DecidableEq, Repr, Inhabited

namespace MemberKey

instance : Ord MemberKey where
  compare := compareLex (compareOn declaration) (compareOn member)

instance : Std.TransOrd MemberKey :=
  inferInstanceAs (Std.TransCmp (compareLex (compareOn declaration) (compareOn member)))

instance : Std.LawfulEqOrd MemberKey where
  eq_of_compare {a b} h := by
    have h : (compareLex (compareOn declaration) (compareOn member)) a b = .eq := h
    obtain ⟨sameDeclaration, sameMember⟩ := compareLex_eq_eq.1 h
    cases a
    cases b
    simp_all [compareOn]

def text (key : MemberKey) : String := key.declaration.text ++ "." ++ key.member

end MemberKey

/-- A name as one module sees it: brought in by an import, or given to other modules by an export. The
default export has the name `default`. -/
inductive Binding where
  | imported (key : DeclarationKey)
  | exported (key : DeclarationKey)
  deriving DecidableEq, Repr, Inhabited

namespace Binding

def key : Binding → DeclarationKey
  | .imported key | .exported key => key

/-- Imports come before exports. -/
def rank : Binding → Nat
  | .imported _ => 0
  | .exported _ => 1

instance : Ord Binding where
  compare := compareLex (compareOn rank) (compareOn key)

instance : Std.TransOrd Binding :=
  inferInstanceAs (Std.TransCmp (compareLex (compareOn rank) (compareOn key)))

instance : Std.LawfulEqOrd Binding where
  eq_of_compare {a b} h := by
    have h : (compareLex (compareOn rank) (compareOn key)) a b = .eq := h
    obtain ⟨sameRank, sameKey⟩ := compareLex_eq_eq.1 h
    cases a <;> cases b <;> simp_all [compareOn, rank, key]

def text : Binding → String
  | .imported key => "import " ++ key.text
  | .exported key => "export " ++ key.text

end Binding

end EnumInline
