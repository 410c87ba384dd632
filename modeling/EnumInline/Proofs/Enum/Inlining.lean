import EnumInline.Proofs.Enum.Failure
import EnumInline.Proofs.Enum.ReadBack
import Mathlib.Data.List.Forall2
import Mathlib.Data.Option.Basic

/-!
References that become literals. Where a reference to a member is replaced by a
literal that reads as the value it had, the enums of a project keep their values,
as far as a text can tell: the same members have one, it is written alike, and the
same number follows it.
-/

namespace EnumInline

section Related

variable {α β γ δ : Type} {r : α → β → Prop}

theorem exists_right_of_rel {first : Option α} {second : Option β}
    (h : Option.Rel r first second) {item : α} (hitem : first = some item) :
    ∃ other, second = some other ∧ r item other := by
  cases h with
  | none => cases hitem
  | some h =>
    cases hitem
    exact ⟨_, rfl, h⟩

theorem exists_left_of_rel {first : Option α} {second : Option β}
    (h : Option.Rel r first second) {other : β} (hother : second = some other) :
    ∃ item, first = some item ∧ r item other := by
  cases h with
  | none => cases hother
  | some h =>
    cases hother
    exact ⟨_, rfl, h⟩

theorem rel_option_map {first : Option α} {second : Option β}
    (h : Option.Rel r first second) {p : γ → δ → Prop} {f : α → γ} {g : β → δ}
    (hstep : ∀ item other, r item other → p (f item) (g other)) :
    Option.Rel p (first.map f) (second.map g) := by
  cases h with
  | none => exact .none
  | some h => exact .some (hstep _ _ h)

variable {items : List α} {others : List β} (h : List.Forall₂ r items others)

include h

theorem rel_getElem? (position : Nat) : Option.Rel r items[position]? others[position]? := by
  induction h generalizing position with
  | nil => simp
  | cons hhead _ ih =>
    cases position with
    | zero => simpa using hhead
    | succ position => simpa using ih position

theorem map_eq_of_forall₂ {f : α → γ} {g : β → γ}
    (hstep : ∀ item other, r item other → f item = g other) :
    items.map f = others.map g := by
  have hmap := List.rel_map (P := Eq) (fun _ _ hitem => hstep _ _ hitem) h
  rwa [List.forall₂_eq_eq_eq] at hmap

theorem flatMap_eq_of_forall₂ {f : α → List γ} {g : β → List γ}
    (hstep : ∀ item other, r item other → f item = g other) :
    items.flatMap f = others.flatMap g := by
  rw [List.flatMap_def, List.flatMap_def, map_eq_of_forall₂ h hstep]

end Related

/-- What an initializer is after inlining: as it was, or a literal that is read from
the text of the value it has, where it was a reference through a qualifier. -/
inductive Initializer.Inlined (value? : Option MemberValue) :
    Initializer → Initializer → Prop where
  | same (initializer : Initializer) : Inlined value? initializer initializer
  | literal {qualifier member : String} {value read : MemberValue}
      (hvalue : value? = some value) (hread : read.IsReadFrom value.chars) :
      Inlined value? (.reference (some qualifier) member)
        (.literal read.operator read.literal)

namespace Enum

/-- A member of the enum `key` after inlining. -/
structure Member.Inlined (values : Values) (key : DeclarationKey)
    (member inlined : Member) : Prop where
  name : inlined.name = member.name
  initializer : Initializer.Inlined values[(⟨key, member.name⟩ : MemberKey)]?
    member.initializer inlined.initializer

/-- The declaration of the enum `key` after inlining. -/
structure Declaration.Inlined (values : Values) (key : DeclarationKey)
    (declaration inlined : Declaration) : Prop where
  name : inlined.name = declaration.name
  isExported : inlined.isExported = declaration.isExported
  members : List.Forall₂ (Member.Inlined values key) declaration.members inlined.members

/-- The declarations of a project after inlining. -/
def Index.Inlined (values : Values) (index after : Index) : Prop :=
  ∀ key, Option.Rel (Declaration.Inlined values key) index[key]? after[key]?

theorem Member.Inlined.refl (values : Values) (key : DeclarationKey) (member : Member) :
    Member.Inlined values key member member := ⟨rfl, .same _⟩

theorem Declaration.Inlined.refl (values : Values) (key : DeclarationKey)
    (declaration : Declaration) : Declaration.Inlined values key declaration declaration :=
  ⟨rfl, rfl, List.forall₂_same.2 fun _ _ => .refl values key _⟩

section Members

variable {values : Values} {index after : Index} (h : Index.Inlined values index after)

include h

theorem Index.Inlined.mem_iff {key : DeclarationKey} : key ∈ after ↔ key ∈ index := by
  rw [KeyedList.mem_iff_exists, KeyedList.mem_iff_exists]
  constructor
  · rintro ⟨declaration, hdeclaration⟩
    obtain ⟨before, hbefore, -⟩ := exists_left_of_rel (h key) hdeclaration
    exact ⟨before, hbefore⟩
  · rintro ⟨declaration, hdeclaration⟩
    obtain ⟨later, hlater, -⟩ := exists_right_of_rel (h key) hdeclaration
    exact ⟨later, hlater⟩

theorem IsMember.after_inlining {key : MemberKey} {position : Nat}
    {initializer : Initializer} (hmember : IsMember index key position initializer) :
    ∃ initializer', IsMember after key position initializer' ∧
      Initializer.Inlined values[key]? initializer initializer' := by
  obtain ⟨declaration, hdeclaration, hat⟩ := hmember
  obtain ⟨later, hlater, hinlined⟩ := exists_right_of_rel (h key.declaration) hdeclaration
  obtain ⟨⟨name, initializer'⟩, hthere, hname, hinitializer⟩ :=
    exists_right_of_rel (rel_getElem? hinlined.members position) hat
  obtain rfl : name = key.member := hname
  exact ⟨initializer', ⟨later, hlater, hthere⟩, hinitializer⟩

theorem IsMember.before_inlining {key : MemberKey} {position : Nat}
    {initializer : Initializer} (hmember : IsMember after key position initializer) :
    ∃ initializer', IsMember index key position initializer' ∧
      Initializer.Inlined values[key]? initializer' initializer := by
  obtain ⟨declaration, hdeclaration, hat⟩ := hmember
  obtain ⟨before, hbefore, hinlined⟩ := exists_left_of_rel (h key.declaration) hdeclaration
  obtain ⟨⟨name, initializer'⟩, hthere, hname, hinitializer⟩ :=
    exists_left_of_rel (rel_getElem? hinlined.members position) hat
  obtain rfl : key.member = name := hname
  exact ⟨initializer', ⟨before, hbefore, hthere⟩, hinitializer⟩

theorem Denotes.inlined_iff {bindings : BindingGraph} {key target : DeclarationKey}
    {qualifier : Option String} :
    Denotes after bindings key qualifier target ↔
      Denotes index bindings key qualifier target := by
  constructor
  · rintro (_ | hown | ⟨hown, himport⟩)
    · exact .same
    · exact .own (h.mem_iff.1 hown)
    · exact .imported (fun hmem => hown (h.mem_iff.2 hmem)) himport
  · rintro (_ | hown | ⟨hown, himport⟩)
    · exact .same
    · exact .own (h.mem_iff.2 hown)
    · exact .imported (fun hmem => hown (h.mem_iff.1 hmem)) himport

theorem DistinctMembers.inlined (hdistinct : DistinctMembers index) :
    DistinctMembers after := by
  intro key declaration hdeclaration
  obtain ⟨before, hbefore, hinlined⟩ := exists_left_of_rel (h key) hdeclaration
  rw [← map_eq_of_forall₂ hinlined.members fun _ _ hmember => hmember.name.symm]
  exact hdistinct key before hbefore

end Members

section Values

variable {values : Values} {index after : Index} {bindings : BindingGraph}
  (h : Index.Inlined values index after)
  (hvalues : ∀ key value, values[key]? = some value ↔ HasValue index bindings key value)

include h hvalues

/-- Every value is kept. -/
theorem HasValue.after_inlining {key : MemberKey} {value : MemberValue}
    (hvalue : HasValue index bindings key value) :
    ∃ value', HasValue after bindings key value' ∧ value.Agrees value' := by
  induction hvalue with
  | literal hmember =>
    obtain ⟨_, hmember', hinlined⟩ := hmember.after_inlining h
    cases hinlined
    exact ⟨_, .literal hmember', .refl _⟩
  | first hmember =>
    obtain ⟨_, hmember', hinlined⟩ := hmember.after_inlining h
    cases hinlined
    exact ⟨_, .first hmember', .refl _⟩
  | @next declaration name previous position initializer value number hmember hprevious
      _ hnumber ih =>
    obtain ⟨_, hmember', hinlined⟩ := hmember.after_inlining h
    cases hinlined
    obtain ⟨_, hprevious', -⟩ := hprevious.after_inlining h
    obtain ⟨value', hvalue', hagrees⟩ := ih
    have hnext : value'.next? = some (.ordinal (number.add .one)) := by
      rw [hagrees.next, MemberValue.next?, hnumber]
      rfl
    obtain ⟨number', hnumber', hordinal⟩ := Option.map_eq_some_iff.1 hnext
    rw [← hordinal]
    exact ⟨_, .next hmember' hprevious' hvalue' hnumber', .refl _⟩
  | @reference key position qualifier member target value hmember htarget hthere ih =>
    have hown : HasValue index bindings key value := .reference hmember htarget hthere
    obtain ⟨_, hmember', hinlined⟩ := hmember.after_inlining h
    cases hinlined with
    | same =>
      obtain ⟨value', hvalue', hagrees⟩ := ih
      exact ⟨value', .reference hmember' ((Denotes.inlined_iff h).2 htarget) hvalue', hagrees⟩
    | literal hfound hread =>
      rw [(hvalues key value).2 hown] at hfound
      cases hfound
      exact ⟨_, .literal hmember', hread.agrees⟩

theorem HasValue.before_inlining {key : MemberKey} {value : MemberValue}
    (hvalue : HasValue after bindings key value) :
    ∃ value', HasValue index bindings key value' ∧ value'.Agrees value := by
  induction hvalue with
  | literal hmember =>
    obtain ⟨_, hmember', hinlined⟩ := hmember.before_inlining h
    cases hinlined with
    | same => exact ⟨_, .literal hmember', .refl _⟩
    | literal hfound hread => exact ⟨_, (hvalues _ _).1 hfound, hread.agrees⟩
  | first hmember =>
    obtain ⟨_, hmember', hinlined⟩ := hmember.before_inlining h
    cases hinlined
    exact ⟨_, .first hmember', .refl _⟩
  | @next declaration name previous position initializer value number hmember hprevious
      _ hnumber ih =>
    obtain ⟨_, hmember', hinlined⟩ := hmember.before_inlining h
    cases hinlined
    obtain ⟨_, hprevious', -⟩ := hprevious.before_inlining h
    obtain ⟨value', hvalue', hagrees⟩ := ih
    have hnext : value'.next? = some (.ordinal (number.add .one)) := by
      rw [← hagrees.next, MemberValue.next?, hnumber]
      rfl
    obtain ⟨number', hnumber', hordinal⟩ := Option.map_eq_some_iff.1 hnext
    rw [← hordinal]
    exact ⟨_, .next hmember' hprevious' hvalue' hnumber', .refl _⟩
  | @reference key position qualifier member target value hmember htarget hthere ih =>
    obtain ⟨_, hmember', hinlined⟩ := hmember.before_inlining h
    cases hinlined
    obtain ⟨value', hvalue', hagrees⟩ := ih
    exact ⟨value', .reference hmember' ((Denotes.inlined_iff h).1 htarget) hvalue', hagrees⟩

theorem FollowsNonNumeric.before_inlining {key : MemberKey} {value : MemberValue}
    (hfollows : FollowsNonNumeric after bindings key value) :
    ∃ value', FollowsNonNumeric index bindings key value' := by
  obtain ⟨previous, position, initializer, hmember, hprevious, hvalue, hnumber⟩ := hfollows
  obtain ⟨_, hmember', hinlined⟩ := hmember.before_inlining h
  cases hinlined
  obtain ⟨_, hprevious', -⟩ := hprevious.before_inlining h
  obtain ⟨value', hvalue', hagrees⟩ := hvalue.before_inlining h hvalues
  have hnext : value'.next? = none := by
    rw [← hagrees.next, MemberValue.next?, hnumber]
    rfl
  exact ⟨value', previous, position, _, hmember', hprevious', hvalue',
    Option.map_eq_none_iff.1 hnext⟩

end Values

/-- Literals are not faulty, and the other members are as they were. -/
theorem Fault.before_inlining {values : Values} {index after : Index}
    {bindings : BindingGraph} (h : Index.Inlined values index after) {key : MemberKey}
    {position : Nat} {cause : MemberCause}
    (hfault : Fault after bindings key position cause) :
    Fault index bindings key position cause := by
  have hnone {key : MemberKey}
      (hname : ∀ there initializer, ¬ IsMember after key there initializer) :
      ∀ there initializer, ¬ IsMember index key there initializer := by
    intro there initializer hmember
    obtain ⟨initializer', hmember', -⟩ := hmember.after_inlining h
    exact hname there initializer' hmember'
  cases hfault with
  | unsupported hmember =>
    obtain ⟨_, hmember', hinlined⟩ := hmember.before_inlining h
    cases hinlined
    exact .unsupported hmember'
  | notAMember hmember hname =>
    obtain ⟨_, hmember', hinlined⟩ := hmember.before_inlining h
    cases hinlined
    exact .notAMember hmember' (hnone hname)
  | unknownQualifier hmember hown himport =>
    obtain ⟨_, hmember', hinlined⟩ := hmember.before_inlining h
    cases hinlined
    exact .unknownQualifier hmember' (fun hmem => hown (h.mem_iff.2 hmem)) himport
  | noSuchMember hmember htarget hindex hname =>
    obtain ⟨_, hmember', hinlined⟩ := hmember.before_inlining h
    cases hinlined
    exact .noSuchMember hmember' ((Denotes.inlined_iff h).1 htarget) (h.mem_iff.1 hindex)
      (hnone hname)

/-- An evaluation that succeeds does so after inlining, with values that agree. -/
theorem evaluate_inlined {values : Values} {index after : Index}
    {bindings : BindingGraph} (hdistinct : DistinctMembers index)
    (hevaluate : evaluate index bindings = .ok values)
    (h : Index.Inlined values index after) :
    ∃ values' : Values, evaluate after bindings = .ok values' ∧
      ∀ key : MemberKey, Option.Rel MemberValue.Agrees values[key]? values'[key]? := by
  have hvalues (key : MemberKey) (value : MemberValue) :
      values[key]? = some value ↔ HasValue index bindings key value :=
    ⟨Evaluation.hasValue_of_evaluate hdistinct hevaluate,
      Evaluation.getElem?_of_hasValue hdistinct hevaluate⟩
  have hdistinct' : DistinctMembers after := hdistinct.inlined h
  cases hevaluate' : evaluate after bindings with
  | error failure =>
    rcases Evaluation.evaluate_error hdistinct' hevaluate' with
      ⟨key, position, cause, hfirst, -⟩ | ⟨-, key, value, hfollows, -⟩
    · obtain ⟨failure, hfails⟩ :=
        Evaluation.evaluate_of_fault hdistinct (hfirst.1.before_inlining h)
      cases hevaluate.symm.trans hfails
    · obtain ⟨value', hfollows'⟩ := hfollows.before_inlining h hvalues
      exact absurd hfollows'
        (Evaluation.not_followsNonNumeric_of_evaluate hdistinct hevaluate)
  | ok values' =>
    refine ⟨values', rfl, fun key => ?_⟩
    cases hvalue : values[key]? with
    | some value =>
      obtain ⟨value', hvalue', hagrees⟩ :=
        ((hvalues key value).1 hvalue).after_inlining h hvalues
      rw [Evaluation.getElem?_of_hasValue hdistinct' hevaluate' hvalue']
      exact .some hagrees
    | none =>
      cases hvalue' : values'[key]? with
      | none => exact .none
      | some value' =>
        obtain ⟨value, hbefore, -⟩ :=
          (Evaluation.hasValue_of_evaluate hdistinct' hevaluate' hvalue').before_inlining
            h hvalues
        rw [(hvalues key value).2 hbefore] at hvalue
        cases hvalue

end Enum

end EnumInline
