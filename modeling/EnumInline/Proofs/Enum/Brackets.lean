import EnumInline.Enum.Initializer
import Mathlib.Logic.Relation

/-!
Brackets in initializers. Every expression has one form without brackets, and the initializer is
that of this form. So expressions that differ in brackets alone make the same initializer, down to
the form that is named where it is unsupported.
-/

namespace EnumInline

namespace TypeScript

/-- The expression without the brackets in it, at any depth. -/
def Expr.bare : Expr → Expr
  | .paren inner => inner.bare
  | .unary operator operand => .unary operator operand.bare
  | .member object property => .member object.bare property
  | .privateMember object => .privateMember object.bare
  | .index object key => .index object.bare key.bare
  | .binary left right => .binary left.bare right.bare
  | .call callee => .call callee.bare
  | .conditional test yes no => .conditional test.bare yes.bare no.bare
  | expr => expr

/-- Nothing in the expression stands in brackets. -/
def Expr.IsBare : Expr → Prop
  | .paren _ => False
  | .unary _ operand => operand.IsBare
  | .member object _ | .privateMember object => object.IsBare
  | .index object key => object.IsBare ∧ key.IsBare
  | .binary left right => left.IsBare ∧ right.IsBare
  | .call callee => callee.IsBare
  | .conditional test yes no => test.IsBare ∧ yes.IsBare ∧ no.IsBare
  | _ => True

/-- The second expression is the first one with brackets around one part of it, or around all. -/
inductive Expr.Bracketed : Expr → Expr → Prop where
  | whole (expr : Expr) : Bracketed expr (.paren expr)
  | inner {before after : Expr} (h : Bracketed before after) :
      Bracketed (.paren before) (.paren after)
  | operand (operator : UnaryOperator) {before after : Expr} (h : Bracketed before after) :
      Bracketed (.unary operator before) (.unary operator after)
  | object (property : String) {before after : Expr} (h : Bracketed before after) :
      Bracketed (.member before property) (.member after property)
  | privateObject {before after : Expr} (h : Bracketed before after) :
      Bracketed (.privateMember before) (.privateMember after)
  | indexed (key : Expr) {before after : Expr} (h : Bracketed before after) :
      Bracketed (.index before key) (.index after key)
  | key (object : Expr) {before after : Expr} (h : Bracketed before after) :
      Bracketed (.index object before) (.index object after)
  | left (right : Expr) {before after : Expr} (h : Bracketed before after) :
      Bracketed (.binary before right) (.binary after right)
  | right (left : Expr) {before after : Expr} (h : Bracketed before after) :
      Bracketed (.binary left before) (.binary left after)
  | callee {before after : Expr} (h : Bracketed before after) :
      Bracketed (.call before) (.call after)
  | test (yes no : Expr) {before after : Expr} (h : Bracketed before after) :
      Bracketed (.conditional before yes no) (.conditional after yes no)
  | yes (test no : Expr) {before after : Expr} (h : Bracketed before after) :
      Bracketed (.conditional test before no) (.conditional test after no)
  | no (test yes : Expr) {before after : Expr} (h : Bracketed before after) :
      Bracketed (.conditional test yes before) (.conditional test yes after)

/-- One expression becomes the other when brackets are put in and taken out, anywhere and any number
of times. -/
def Expr.DiffersInBrackets : Expr → Expr → Prop := Relation.EqvGen Expr.Bracketed

namespace Expr

open Relation

variable {expr variant : Expr}

theorem isBare_bare (expr : Expr) : expr.bare.IsBare := by
  induction expr with
  | paren _ ih | unary _ _ ih | member _ _ ih | privateMember _ ih | call _ ih => exact ih
  | index _ _ ihObject ihKey => exact ⟨ihObject, ihKey⟩
  | binary _ _ ihLeft ihRight => exact ⟨ihLeft, ihRight⟩
  | conditional _ _ _ ihTest ihYes ihNo => exact ⟨ihTest, ihYes, ihNo⟩
  | _ => trivial

/-- Brackets around a part are not in the form without brackets. -/
theorem Bracketed.bare_eq (h : Bracketed expr variant) : expr.bare = variant.bare := by
  induction h with
  | whole => rfl
  | inner _ ih => exact ih
  | _ => simp only [bare, *]

/-- An expression comes about from its form without brackets, by brackets around one part after the
other. -/
theorem bracketed_bare (expr : Expr) : ReflTransGen Bracketed expr.bare expr := by
  induction expr with
  | paren inner ih => exact ih.tail (.whole inner)
  | unary operator _ ih => exact ih.lift (unary operator) fun _ _ => .operand operator
  | member _ property ih => exact ih.lift (member · property) fun _ _ => .object property
  | privateMember _ ih => exact ih.lift privateMember fun _ _ => .privateObject
  | call _ ih => exact ih.lift call fun _ _ => .callee
  -- where there are several parts, each gets its brackets before the next one
  | index object key ihObject ihKey =>
    have hobject : ReflTransGen Bracketed _ (index object key.bare) :=
      ihObject.lift (index · key.bare) fun _ _ => .indexed key.bare
    exact hobject.trans (ihKey.lift (index object) fun _ _ => .key object)
  | binary left right ihLeft ihRight =>
    have hleft : ReflTransGen Bracketed _ (binary left right.bare) :=
      ihLeft.lift (binary · right.bare) fun _ _ => .left right.bare
    exact hleft.trans (ihRight.lift (binary left) fun _ _ => .right left)
  | conditional test yes no ihTest ihYes ihNo =>
    have htest : ReflTransGen Bracketed _ (conditional test yes.bare no.bare) :=
      ihTest.lift (conditional · yes.bare no.bare) fun _ _ => .test yes.bare no.bare
    have hyes : ReflTransGen Bracketed _ (conditional test yes no.bare) :=
      ihYes.lift (conditional test · no.bare) fun _ _ => .yes test no.bare
    exact (htest.trans hyes).trans (ihNo.lift (conditional test yes) fun _ _ => .no test yes)
  | _ => exact .refl

theorem differsInBrackets_bare (expr : Expr) : expr.DiffersInBrackets expr.bare := by
  have hle : ReflTransGen Bracketed ≤ EqvGen Bracketed := EqvGen.reflTransGen_le_eqvGen _
  exact .symm _ _ (hle _ _ (bracketed_bare expr))

/-- Expressions differ in brackets alone just if they are the same without. -/
theorem differsInBrackets_iff : expr.DiffersInBrackets variant ↔ expr.bare = variant.bare := by
  constructor
  · intro h
    induction h with
    | rel _ _ hstep => exact hstep.bare_eq
    | refl => rfl
    | symm _ _ _ ih => exact ih.symm
    | trans _ _ _ _ _ ihFirst ihSecond => exact ihFirst.trans ihSecond
  · intro h
    have hvariant := EqvGen.symm _ _ (differsInBrackets_bare variant)
    rw [← h] at hvariant
    exact .trans _ _ _ (differsInBrackets_bare expr) hvariant

instance : DecidableRel DiffersInBrackets :=
  fun _ _ => decidable_of_iff _ differsInBrackets_iff.symm

end Expr

end TypeScript

namespace Initializer

open TypeScript

theorem literal?_bare (expr : Expr) : literal? expr.bare = literal? expr := by
  induction expr with
  | paren _ ih => exact ih
  | _ => rfl

theorem ofUnary_bare (operator : UnaryOperator) (operand : Expr) :
    ofUnary operator operand.bare = ofUnary operator operand := by
  unfold ofUnary
  rw [literal?_bare]

theorem ofMember_bare (object : Expr) (member : Except UnsupportedForm String) :
    ofMember object.bare member = ofMember object member := by
  induction object with
  | paren _ ih => exact ih
  | _ => rfl

theorem memberOfKey_bare (key : Expr) : memberOfKey key.bare = memberOfKey key := by
  unfold memberOfKey
  rw [literal?_bare]

theorem ofExpr_bare (expr : Expr) : ofExpr expr.bare = ofExpr expr := by
  induction expr with
  | paren _ ih => exact ih
  | unary operator operand => exact ofUnary_bare operator operand
  | member object property => exact ofMember_bare object (.ok property)
  | privateMember object => exact ofMember_bare object (.error .privateMember)
  | index object key =>
    calc ofMember object.bare (memberOfKey key.bare)
      _ = ofMember object (memberOfKey key.bare) := ofMember_bare object _
      _ = ofMember object (memberOfKey key) := by rw [memberOfKey_bare]
  | _ => rfl

/-- Brackets never matter. Without its brackets an expression makes the same initializer, and so
does every other that differs from it in brackets alone. -/
theorem ofExpr?_ignores_brackets (expr : Expr) :
    expr.bare.IsBare ∧ ofExpr? (some expr.bare) = ofExpr? (some expr) ∧
      ∀ variant, expr.DiffersInBrackets variant →
        ofExpr? (some variant) = ofExpr? (some expr) := by
  refine ⟨Expr.isBare_bare expr, ofExpr_bare expr, ?_⟩
  intro variant hdiffers
  calc ofExpr variant
    _ = ofExpr variant.bare := (ofExpr_bare variant).symm
    _ = ofExpr expr.bare := by rw [Expr.differsInBrackets_iff.1 hdiffers]
    _ = ofExpr expr := ofExpr_bare expr

/-- The expressions are `((Color)[(("Red"))])` and `(Color["Red"])`. -/
theorem ofExpr?_ignores_brackets_red :
    Expr.DiffersInBrackets
        (.paren (.index (.paren (.name "Color")) (.paren (.paren (.string "Red")))))
        (.paren (.index (.name "Color") (.string "Red"))) ∧
      ofExpr? (some (.paren (.index (.name "Color") (.string "Red")))) =
        ofExpr? (some (.paren (.index (.paren (.name "Color"))
          (.paren (.paren (.string "Red")))))) := by
  have hdiffers : Expr.DiffersInBrackets
      (.paren (.index (.paren (.name "Color")) (.paren (.paren (.string "Red")))))
      (.paren (.index (.name "Color") (.string "Red"))) := by decide
  exact ⟨hdiffers, (ofExpr?_ignores_brackets _).2.2 _ hdiffers⟩

end Initializer

end EnumInline
