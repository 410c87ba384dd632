import EnumInline.Enum.Evaluation
import EnumInline.Proofs.KeyedList
import Mathlib.Data.Fintype.Card
import Mathlib.Data.Set.Finite.Basic
import Mathlib.Logic.Relation

/-!
What the members of a project are worth, said without an algorithm. The value
of a member is derived from its initializer and from the value of the one
member it awaits. A member whose chain of awaited members runs in a circle, or
leads to an import that means nothing, has no value.
-/

namespace EnumInline.Enum

variable (index : Index) (bindings : BindingGraph)

/-- A member has a position in its enum, and an initializer. -/
def IsMember (key : MemberKey) (position : Nat)
    (initializer : Initializer) : Prop :=
  ∃ declaration : Declaration, index[key.declaration]? = some declaration ∧
    declaration.members[position]? = some ⟨key.member, initializer⟩

/-- No enum has two members of one name. -/
def DistinctMembers : Prop :=
  ∀ (key : DeclarationKey) (declaration : Declaration),
    index[key]? = some declaration →
    (declaration.members.map Member.name).Nodup

/-- The enum `key` does not have two members of one name. -/
def DistinctIn (key : DeclarationKey) : Prop :=
  ∀ declaration : Declaration, index[key]? = some declaration →
    (declaration.members.map Member.name).Nodup

/-- The enum that a reference in the enum `key` speaks of: without a qualifier
the enum itself, else the enum of that name in the same module, or else the
target of the import of that name. -/
inductive Denotes (key : DeclarationKey) :
    Option String → DeclarationKey → Prop where
  | same : Denotes key none key
  | own {qualifier : String} (hown : ⟨key.module, qualifier⟩ ∈ index) :
      Denotes key (some qualifier) ⟨key.module, qualifier⟩
  | imported {qualifier : String} {target : DeclarationKey}
      (hown : ⟨key.module, qualifier⟩ ∉ index)
      (himport : bindings.importTarget? key.module qualifier = some target) :
      Denotes key (some qualifier) target

/-- The values of members: the least relation that fits their initializers. -/
inductive HasValue : MemberKey → MemberValue → Prop where
  | literal {key : MemberKey} {position : Nat} {operator : Option PrefixOperator}
      {constant : Literal}
      (hmember : IsMember index key position (.literal operator constant)) :
      HasValue key ⟨operator, constant⟩
  | first {key : MemberKey} (hmember : IsMember index key 0 .implicit) :
      HasValue key (.ordinal .zero)
  | next {declaration : DeclarationKey} {name previous : String} {position : Nat}
      {initializer : Initializer} {value : MemberValue} {number : Double}
      (hmember : IsMember index ⟨declaration, name⟩ (position + 1) .implicit)
      (hprevious : IsMember index ⟨declaration, previous⟩ position initializer)
      (hvalue : HasValue ⟨declaration, previous⟩ value)
      (hnumber : value.numeric? = some number) :
      HasValue ⟨declaration, name⟩ (.ordinal (number.add .one))
  | reference {key : MemberKey} {position : Nat} {qualifier : Option String}
      {member : String} {target : DeclarationKey} {value : MemberValue}
      (hmember : IsMember index key position (.reference qualifier member))
      (htarget : Denotes index bindings key.declaration qualifier target)
      (hvalue : HasValue ⟨target, member⟩ value) : HasValue key value

/-- What the declaration of the enum `key` makes the member `name` worth, if
the values of the members it speaks of are those in `known`. -/
inductive Worth (known : MemberKey → MemberValue → Prop) (key : DeclarationKey)
    (declaration : Declaration) (name : String) : MemberValue → Prop where
  | literal {position : Nat} {operator : Option PrefixOperator}
      {constant : Literal} (hmember : declaration.members[position]? =
        some ⟨name, .literal operator constant⟩) :
      Worth known key declaration name ⟨operator, constant⟩
  | first (hmember : declaration.members[0]? = some ⟨name, .implicit⟩) :
      Worth known key declaration name (.ordinal .zero)
  | next {previous : String} {position : Nat} {initializer : Initializer}
      {value : MemberValue} {number : Double}
      (hmember : declaration.members[position + 1]? = some ⟨name, .implicit⟩)
      (hprevious : declaration.members[position]? = some ⟨previous, initializer⟩)
      (hvalue : known ⟨key, previous⟩ value)
      (hnumber : value.numeric? = some number) :
      Worth known key declaration name (.ordinal (number.add .one))
  | reference {position : Nat} {qualifier : Option String} {member : String}
      {target : DeclarationKey} {value : MemberValue}
      (hmember : declaration.members[position]? =
        some ⟨name, .reference qualifier member⟩)
      (htarget : Denotes index bindings key qualifier target)
      (hvalue : known ⟨target, member⟩ value) :
      Worth known key declaration name value

/-- The member from which another gets its value: the one before it, or the one
it refers to. -/
inductive Awaits : MemberKey → MemberKey → Prop where
  | previous {declaration : DeclarationKey} {name previous : String}
      {position : Nat} {initializer : Initializer}
      (hmember : IsMember index ⟨declaration, name⟩ (position + 1) .implicit)
      (hprevious : IsMember index ⟨declaration, previous⟩ position initializer) :
      Awaits ⟨declaration, name⟩ ⟨declaration, previous⟩
  | reference {key : MemberKey} {position : Nat} {qualifier : Option String}
      {member : String} {target : DeclarationKey}
      (hmember : IsMember index key position (.reference qualifier member))
      (htarget : Denotes index bindings key.declaration qualifier target) :
      Awaits key ⟨target, member⟩

/-- In the enum `key` a name means an import that has no target, or one whose
target is not in the index. -/
inductive Unlinked (key : DeclarationKey) (qualifier : String) : Prop where
  | unresolved (hown : ⟨key.module, qualifier⟩ ∉ index)
      (hname : bindings.hasImport key.module qualifier = true)
      (himport : bindings.importTarget? key.module qualifier = none) :
      Unlinked key qualifier
  | unknown {target : DeclarationKey} (hown : ⟨key.module, qualifier⟩ ∉ index)
      (himport : bindings.importTarget? key.module qualifier = some target)
      (htarget : target ∉ index) : Unlinked key qualifier

/-- A member refers through such an import. -/
def LeadsNowhere (key : MemberKey) : Prop :=
  ∃ position qualifier member,
    IsMember index key position (.reference (some qualifier) member) ∧
      Unlinked index bindings key.declaration qualifier

/-- The chain of members that a member awaits comes to one that awaits itself in
the end, or to one that leads nowhere. -/
def Blocked (key : MemberKey) : Prop :=
  ∃ last, Relation.ReflTransGen (Awaits index bindings) key last ∧
    (Relation.TransGen (Awaits index bindings) last last ∨
      LeadsNowhere index bindings last)

variable {index bindings}

theorem isMember_iff {key : MemberKey} {position : Nat}
    {initializer : Initializer} :
    IsMember index key position initializer ↔
      (index[key.declaration]?.bind fun declaration =>
        declaration.members[position]?) =
        some ⟨key.member, initializer⟩ := by
  simp only [IsMember, Option.bind_eq_some_iff]

instance {key : MemberKey} {position : Nat} {initializer : Initializer} :
    Decidable (IsMember index key position initializer) :=
  decidable_of_iff _ isMember_iff.symm

theorem distinctMembers_iff :
    DistinctMembers index ↔
      ∀ entry ∈ index.toList, (entry.2.members.map Member.name).Nodup := by
  simp only [DistinctMembers, Prod.forall,
    Std.ExtTreeMap.mem_toList_iff_getElem?_eq_some]

instance : Decidable (DistinctMembers index) :=
  decidable_of_iff _ distinctMembers_iff.symm

/-- In an enum without repeated names, a name has one position and
one initializer. -/
theorem IsMember.unique_of_distinctIn {key : MemberKey}
    (hdistinct : DistinctIn index key.declaration)
    {first second : Nat} {initializer other : Initializer}
    (h : IsMember index key first initializer)
    (hother : IsMember index key second other) :
    first = second ∧ initializer = other := by
  obtain ⟨declaration, hdeclaration, hfirst⟩ := h
  obtain ⟨same, hsame, hsecond⟩ := hother
  obtain rfl : declaration = same := Option.some.inj (hdeclaration.symm.trans hsame)
  have hposition : first = second := by
    have hlt : first < (declaration.members.map Member.name).length := by
      have hlt := (List.getElem?_eq_some_iff.mp hfirst).1
      simpa using hlt
    apply (List.getElem?_inj hlt (hdistinct _ hdeclaration)).mp
    simp [hfirst, hsecond]
  subst hposition
  have hmember := Option.some.inj (hfirst.symm.trans hsecond)
  exact ⟨rfl, congrArg Member.initializer hmember⟩

theorem IsMember.unique (hdistinct : DistinctMembers index) {key : MemberKey}
    {first second : Nat} {initializer other : Initializer}
    (h : IsMember index key first initializer)
    (hother : IsMember index key second other) :
    first = second ∧ initializer = other :=
  h.unique_of_distinctIn (hdistinct key.declaration) hother

theorem Denotes.unique {key first second : DeclarationKey}
    {qualifier : Option String} (h : Denotes index bindings key qualifier first)
    (hother : Denotes index bindings key qualifier second) :
    first = second := by
  cases h with
  | same =>
    cases hother
    rfl
  | own hown =>
    cases hother with
    | own => rfl
    | imported hnone => exact absurd hown hnone
  | imported hnone himport =>
    cases hother with
    | own hown => exact absurd hown hnone
    | imported _ hsecond => exact Option.some.inj (himport.symm.trans hsecond)

/-- A member awaits at most one other. -/
theorem Awaits.unique (hdistinct : DistinctMembers index)
    {key first second : MemberKey} (h : Awaits index bindings key first)
    (hother : Awaits index bindings key second) : first = second := by
  cases h with
  | previous hmember hprevious =>
    cases hother with
    | previous hsame hbefore =>
      obtain ⟨hposition, _⟩ := hmember.unique hdistinct hsame
      obtain rfl := Nat.succ.inj hposition
      obtain ⟨declaration, hdeclaration, hat⟩ := hprevious
      obtain ⟨other, hequal, hbefore⟩ := hbefore
      obtain rfl : declaration = other :=
        Option.some.inj (hdeclaration.symm.trans hequal)
      cases hat.symm.trans hbefore
      rfl
    | reference hsame _ => cases (hmember.unique hdistinct hsame).2
  | reference hmember htarget =>
    cases hother with
    | previous hsame _ => cases (hmember.unique hdistinct hsame).2
    | reference hsame hdenotes =>
      cases (hmember.unique hdistinct hsame).2
      rw [htarget.unique hdenotes]

theorem Blocked.of_reached {key last : MemberKey}
    (hchain : Relation.ReflTransGen (Awaits index bindings) key last)
    (h : Blocked index bindings last) : Blocked index bindings key := by
  obtain ⟨final, hrest, hfinal⟩ := h
  exact ⟨final, hchain.trans hrest, hfinal⟩

/-- A member that awaits another is blocked only if the other is, or if it leads
nowhere itself. -/
theorem Blocked.of_awaits (hdistinct : DistinctMembers index)
    {key target : MemberKey} (h : Blocked index bindings key)
    (hawaits : Awaits index bindings key target) :
    Blocked index bindings target ∨ LeadsNowhere index bindings key := by
  obtain ⟨last, hchain, hlast⟩ := h
  cases Relation.ReflTransGen.cases_head hchain with
  | inl hsame =>
    subst hsame
    rcases hlast with hcycle | hnowhere
    · -- the first step of the circle leads to `target`, which is then on the circle too
      obtain ⟨next, hstep, hback⟩ := Relation.TransGen.head'_iff.mp hcycle
      obtain rfl := hstep.unique hdistinct hawaits
      exact Or.inl ⟨next, .refl, Or.inl (Relation.TransGen.tail' hback hstep)⟩
    · exact Or.inr hnowhere
  | inr hstep =>
    obtain ⟨next, hstep, hrest⟩ := hstep
    obtain rfl := hstep.unique hdistinct hawaits
    exact Or.inl ⟨last, hrest, hlast⟩

/-- A member that awaits no other is blocked only if it leads nowhere. -/
theorem Blocked.of_not_awaits {key : MemberKey} (h : Blocked index bindings key)
    (hnone : ∀ target, ¬ Awaits index bindings key target) :
    LeadsNowhere index bindings key := by
  obtain ⟨last, hchain, hlast⟩ := h
  cases Relation.ReflTransGen.cases_head hchain with
  | inl hsame =>
    subst hsame
    rcases hlast with hcycle | hnowhere
    · obtain ⟨next, hstep, _⟩ := Relation.TransGen.head'_iff.mp hcycle
      exact absurd hstep (hnone next)
    · exact hnowhere
  | inr hstep =>
    obtain ⟨next, hstep, _⟩ := hstep
    exact absurd hstep (hnone next)

theorem IsMember.mem_index {key : MemberKey} {position : Nat}
    {initializer : Initializer} (h : IsMember index key position initializer) :
    key.declaration ∈ index := by
  obtain ⟨declaration, hdeclaration, _⟩ := h
  exact KeyedList.mem_iff_exists.mpr ⟨declaration, hdeclaration⟩

theorem HasValue.isMember {key : MemberKey} {value : MemberValue}
    (h : HasValue index bindings key value) :
    ∃ position initializer, IsMember index key position initializer := by
  cases h with
  | literal hmember => exact ⟨_, _, hmember⟩
  | first hmember => exact ⟨_, _, hmember⟩
  | next hmember _ _ _ => exact ⟨_, _, hmember⟩
  | reference hmember _ _ => exact ⟨_, _, hmember⟩

theorem HasValue.mem_index {key : MemberKey} {value : MemberValue}
    (h : HasValue index bindings key value) : key.declaration ∈ index := by
  obtain ⟨position, initializer, hmember⟩ := h.isMember
  exact hmember.mem_index

theorem Worth.hasValue {key : DeclarationKey} {declaration : Declaration}
    {name : String} {value : MemberValue}
    (hindex : index[key]? = some declaration)
    (h : Worth index bindings (HasValue index bindings) key declaration name
      value) : HasValue index bindings ⟨key, name⟩ value := by
  cases h with
  | literal hmember => exact .literal ⟨declaration, hindex, hmember⟩
  | first hmember => exact .first ⟨declaration, hindex, hmember⟩
  | next hmember hprevious hvalue hnumber =>
    exact .next ⟨declaration, hindex, hmember⟩ ⟨declaration, hindex, hprevious⟩
      hvalue hnumber
  | reference hmember htarget hvalue =>
    exact .reference ⟨declaration, hindex, hmember⟩ htarget hvalue

theorem HasValue.unique (hdistinct : DistinctMembers index) {key : MemberKey}
    {first second : MemberValue} (h : HasValue index bindings key first)
    (hother : HasValue index bindings key second) : first = second := by
  induction h generalizing second with
  | literal hmember =>
    cases hother with
    | literal hsame =>
      cases (hmember.unique hdistinct hsame).2
      rfl
    | first hsame => cases (hmember.unique hdistinct hsame).2
    | next hsame _ _ _ => cases (hmember.unique hdistinct hsame).2
    | reference hsame _ _ => cases (hmember.unique hdistinct hsame).2
  | first hmember =>
    cases hother with
    | literal hsame => cases (hmember.unique hdistinct hsame).2
    | first hsame => rfl
    | next hsame _ _ _ => cases (hmember.unique hdistinct hsame).1
    | reference hsame _ _ => cases (hmember.unique hdistinct hsame).2
  | next hmember hprevious _ hnumber ih =>
    cases hother with
    | literal hsame => cases (hmember.unique hdistinct hsame).2
    | first hsame => cases (hmember.unique hdistinct hsame).1
    | next hsame hbefore hvalue hcount =>
      have hawaits : Awaits index bindings ⟨_, _⟩ ⟨_, _⟩ :=
        .previous hmember hprevious
      cases hawaits.unique hdistinct (.previous hsame hbefore)
      obtain rfl := ih hvalue
      cases hnumber.symm.trans hcount
      rfl
    | reference hsame _ _ => cases (hmember.unique hdistinct hsame).2
  | reference hmember htarget _ ih =>
    cases hother with
    | literal hsame => cases (hmember.unique hdistinct hsame).2
    | first hsame => cases (hmember.unique hdistinct hsame).2
    | next hsame _ _ _ => cases (hmember.unique hdistinct hsame).2
    | reference hsame hdenotes hvalue =>
      cases (hmember.unique hdistinct hsame).2
      obtain rfl := htarget.unique hdenotes
      exact ih hvalue

theorem Unlinked.not_mem {key target : DeclarationKey} {qualifier : String}
    (h : Unlinked index bindings key qualifier)
    (htarget : Denotes index bindings key (some qualifier) target) :
    target ∉ index := by
  cases htarget with
  | own hown =>
    cases h with
    | unresolved hnone _ _ => exact absurd hown hnone
    | unknown hnone _ _ => exact absurd hown hnone
  | imported _ himport =>
    cases h with
    | unresolved _ _ hnone => simp [hnone] at himport
    | unknown _ hsame hunknown =>
      cases hsame.symm.trans himport
      exact hunknown

theorem not_leadsNowhere_of_denotes (hdistinct : DistinctMembers index)
    {key : MemberKey} {position : Nat} {qualifier : Option String}
    {member : String} {target : DeclarationKey}
    (hmember : IsMember index key position (.reference qualifier member))
    (htarget : Denotes index bindings key.declaration qualifier target)
    (hindex : target ∈ index) : ¬ LeadsNowhere index bindings key := by
  rintro ⟨_, _, _, hsame, hunlinked⟩
  cases (hmember.unique hdistinct hsame).2
  exact hunlinked.not_mem htarget hindex

/-- A member is not blocked if its initializer is a constant, or if it is the
first and has none. -/
theorem not_blocked_of_constant (hdistinct : DistinctMembers index)
    {key : MemberKey} {position : Nat} {initializer : Initializer}
    (hmember : IsMember index key position initializer)
    (hreference : ∀ qualifier member, initializer ≠ .reference qualifier member)
    (hfirst : initializer = .implicit → position = 0) :
    ¬ Blocked index bindings key := by
  intro hblocked
  have hnone (target : MemberKey) : ¬ Awaits index bindings key target := by
    intro hawaits
    cases hawaits with
    | previous hsame _ =>
      obtain ⟨hposition, hinitializer⟩ := hmember.unique hdistinct hsame
      have hzero := hfirst hinitializer
      omega
    | reference hsame _ => exact hreference _ _ (hmember.unique hdistinct hsame).2
  obtain ⟨_, _, _, hsame, _⟩ := hblocked.of_not_awaits hnone
  exact hreference _ _ (hmember.unique hdistinct hsame).2

theorem HasValue.not_blocked (hdistinct : DistinctMembers index)
    {key : MemberKey} {value : MemberValue}
    (h : HasValue index bindings key value) : ¬ Blocked index bindings key := by
  induction h with
  | literal hmember =>
      exact not_blocked_of_constant hdistinct hmember (by simp) (by simp)
  | first hmember =>
      exact not_blocked_of_constant hdistinct hmember (by simp) (by simp)
  | next hmember hprevious _ _ ih =>
    intro hblocked
    have hawaits : Awaits index bindings ⟨_, _⟩ ⟨_, _⟩ :=
      .previous hmember hprevious
    rcases hblocked.of_awaits hdistinct hawaits with hprevious | hnowhere
    · exact ih hprevious
    · obtain ⟨_, _, _, hreference, _⟩ := hnowhere
      cases (hmember.unique hdistinct hreference).2
  | reference hmember htarget hvalue ih =>
    intro hblocked
    have hawaits := Awaits.reference hmember htarget
    rcases hblocked.of_awaits hdistinct hawaits with hblocked | hnowhere
    · exact ih hblocked
    · exact not_leadsNowhere_of_denotes hdistinct hmember htarget hvalue.mem_index
        hnowhere

/-- Where only finitely many members are reached along a chain and none of them
lies on a circle, the chain ends. -/
theorem acc_of_finite {α : Type} {r : α → α → Prop} {start : α}
    (hfinite : {last | Relation.ReflTransGen r start last}.Finite)
    (hcycle : ∀ last,
        Relation.ReflTransGen r start last → ¬ Relation.TransGen r last last) :
    Acc (Function.swap r) start := by
  let Reached := {last | Relation.ReflTransGen r start last}
  have : Finite Reached := hfinite
  let later (first second : Reached) : Prop := Relation.TransGen r second.1 first.1
  have : IsTrans Reached later := ⟨fun _ _ _ hfirst hsecond => hsecond.trans hfirst⟩
  have : Std.Irrefl later := ⟨fun last => hcycle last.1 last.2⟩
  have hwf : WellFounded later := Finite.wellFounded_of_trans_of_irrefl later
  have hacc (reached : Reached) : Acc (Function.swap r) reached.1 := by
    induction reached using hwf.induction with
    | h reached ih =>
      constructor
      intro next hstep
      have hreached : Relation.ReflTransGen r start next := reached.2.tail hstep
      exact ih ⟨next, hreached⟩ (.single hstep)
  exact hacc ⟨start, .refl⟩

end EnumInline.Enum
