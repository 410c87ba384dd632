import EnumInline.Proofs.Double.Word
import EnumInline.Proofs.Enum.Evaluation
import EnumInline.Proofs.Session.Members

/-!
Members that count on. A member without an initializer has a value whenever the one before it is
a number, and from a whole number the members count one by one as far as doubles are exact, which
is farther than an enum in a file can go.
-/

namespace EnumInline.Enum

open Evaluation KeyedList

/-- The member at a position has no initializer. -/
def Declaration.IsImplicitAt (declaration : Declaration) (position : Nat) : Prop :=
  ∃ name, declaration.members[position]? = some ⟨name, .implicit⟩

/-- The member at a position of the enum `key` has a value. -/
def Values.HasAt (values : Values) (key : DeclarationKey) (declaration : Declaration)
    (position : Nat) (value : MemberValue) : Prop :=
  ∃ member, declaration.members[position]? = some member ∧
    values[(⟨key, member.name⟩ : MemberKey)]? = some value

section Step

variable {index : Index} {bindings : BindingGraph} {values : Values} {key : DeclarationKey}
  {declaration : Declaration} {position : Nat} {name : String} {value : MemberValue}
  (h : evaluate index bindings = .ok values) (hindex : index[key]? = some declaration)
  (hdistinct : (declaration.members.map Member.name).Nodup)

include hindex hdistinct

theorem distinctIn_of_nodup : DistinctIn index key := by
  intro other hother
  obtain rfl : declaration = other := Option.some.inj (hindex.symm.trans hother)
  exact hdistinct

include h

/-- A member without an initializer has a value if it is the first one, or if the one before it
has one. -/
theorem mem_values_of_implicit
    (hmember : declaration.members[position]? = some ⟨name, .implicit⟩)
    (hbefore : ∀ before previous, position = before + 1 →
      declaration.members[before]? = some previous →
        (⟨key, previous.name⟩ : MemberKey) ∈ values) :
    (⟨key, name⟩ : MemberKey) ∈ values := by
  have hkey : DistinctIn index key := distinctIn_of_nodup hindex hdistinct
  have hthis : IsMember index ⟨key, name⟩ position .implicit := ⟨declaration, hindex, hmember⟩
  obtain ⟨found, hfound, hconsistent⟩ := evaluate_ok h
  obtain ⟨origin, hmem, place, initializer, hsame, hfits⟩ := exists_origin hfound hthis
  obtain ⟨rfl, rfl⟩ := hthis.unique_of_distinctIn hkey hsame
  cases hfits with
  | first => exact mem_values_of_seed hconsistent hmem
  | next hprevious =>
    obtain ⟨other, hother, hat⟩ := hprevious
    obtain rfl : declaration = other := Option.some.inj (hindex.symm.trans hother)
    exact mem_values_of_waits hfound hconsistent hkey hmem (hbefore _ _ rfl hat)

/-- What the value of a member without an initializer is. -/
theorem value_of_implicit (hmember : declaration.members[position]? = some ⟨name, .implicit⟩)
    (hvalue : values[(⟨key, name⟩ : MemberKey)]? = some value) :
    (position = 0 ∧ value = .ordinal .zero) ∨
      ∃ before other number, position = before + 1 ∧ values.HasAt key declaration before other ∧
        other.numeric? = some number ∧ value = .ordinal (number.add .one) := by
  have hkey : DistinctIn index key := distinctIn_of_nodup hindex hdistinct
  have hthis : IsMember index ⟨key, name⟩ position .implicit := ⟨declaration, hindex, hmember⟩
  obtain ⟨same, hsame, hworth⟩ := worth_of_evaluate h hkey hvalue
  obtain rfl : declaration = same := Option.some.inj (hindex.symm.trans hsame)
  have hunique {place : Nat} {initializer : Initializer}
      (hat : declaration.members[place]? = some ⟨name, initializer⟩) :
      position = place ∧ .implicit = initializer :=
    hthis.unique_of_distinctIn hkey ⟨declaration, hindex, hat⟩
  cases hworth with
  | literal hat => cases (hunique hat).2
  | reference hat _ _ => cases (hunique hat).2
  | first hat => exact Or.inl ⟨(hunique hat).1, rfl⟩
  | next hat hprevious hknown hnumber =>
    exact Or.inr ⟨_, _, _, (hunique hat).1, ⟨_, hprevious, hknown⟩, hnumber, rfl⟩

theorem hasAt_zero (himplicit : declaration.IsImplicitAt 0) :
    values.HasAt key declaration 0 (.ordinal .zero) := by
  obtain ⟨name, hmember⟩ := himplicit
  have hmem := mem_values_of_implicit h hindex hdistinct hmember fun _ _ hzero => by omega
  obtain ⟨value, hvalue⟩ := mem_iff_exists.mp hmem
  rcases value_of_implicit h hindex hdistinct hmember hvalue with
    ⟨-, rfl⟩ | ⟨before, _, _, hposition, -⟩
  · exact ⟨_, hmember, hvalue⟩
  · omega

/-- One step of counting. -/
theorem hasAt_succ {number : Double} (hbefore : values.HasAt key declaration position value)
    (hnumber : value.numeric? = some number)
    (himplicit : declaration.IsImplicitAt (position + 1)) :
    values.HasAt key declaration (position + 1) (.ordinal (number.add .one)) := by
  obtain ⟨name, hmember⟩ := himplicit
  obtain ⟨previous, hprevious, hvalue⟩ := hbefore
  have hmem : (⟨key, name⟩ : MemberKey) ∈ values := by
    refine mem_values_of_implicit h hindex hdistinct hmember fun before other hposition hother => ?_
    obtain rfl := Nat.succ.inj hposition
    obtain rfl : previous = other := Option.some.inj (hprevious.symm.trans hother)
    exact mem_iff_exists.mpr ⟨value, hvalue⟩
  obtain ⟨next, hnext⟩ := mem_iff_exists.mp hmem
  rcases value_of_implicit h hindex hdistinct hmember hnext with
    ⟨hposition, -⟩ | ⟨before, other, count, hposition, ⟨same, hsame, hother⟩, hcount, rfl⟩
  · omega
  · obtain rfl := Nat.succ.inj hposition
    obtain rfl : previous = same := Option.some.inj (hprevious.symm.trans hsame)
    obtain rfl : value = other := Option.some.inj (hvalue.symm.trans hother)
    obtain rfl : number = count := Option.some.inj (hnumber.symm.trans hcount)
    exact ⟨_, hmember, hnext⟩

/-- Members without an initializer count on from a whole number. -/
theorem exists_ordinal_of_counting {number : Double} {whole : Int} {count : Nat}
    (hstart : values.HasAt key declaration position value)
    (hnumber : value.numeric? = some number) (hwhole : number.IsWhole whole)
    (himplicit : ∀ step < count, declaration.IsImplicitAt (position + step + 1))
    (hbound : whole.natAbs + count < 2 ^ 53) :
    ∃ found reached, values.HasAt key declaration (position + count) found ∧
      found.numeric? = some reached ∧ reached.IsWhole (whole + count) ∧
      (0 < count → found = .ordinal reached) := by
  induction count with
  | zero => exact ⟨value, number, hstart, hnumber, by simpa using hwhole, by omega⟩
  | succ count ih =>
    obtain ⟨found, reached, hfound, hreached, hsofar, -⟩ :=
      ih (fun step hstep => himplicit step (by omega)) (by omega)
    have hnext := hasAt_succ h hindex hdistinct hfound hreached (himplicit count (by omega))
    have hcounted : (reached.add .one).IsWhole (whole + count + 1) := hsofar.add_one (by omega)
    refine ⟨.ordinal (reached.add .one), reached.add .one, hnext, rfl, ?_, fun _ => rfl⟩
    rwa [Nat.cast_succ, ← Int.add_assoc]

/-- A member that has been counted to has the decimal spelling of its number. -/
theorem exists_text_of_counting {number : Double} {whole : Int} {count : Nat}
    (hstart : values.HasAt key declaration position value)
    (hnumber : value.numeric? = some number) (hwhole : number.IsWhole whole)
    (himplicit : ∀ step < count, declaration.IsImplicitAt (position + step + 1))
    (hbound : whole.natAbs + count < 2 ^ 53) (hcount : 0 < count) :
    ∃ found, values.HasAt key declaration (position + count) found ∧
      found.text = toString (whole + count) := by
  obtain ⟨found, reached, hfound, -, hreached, hordinal⟩ :=
    exists_ordinal_of_counting h hindex hdistinct hstart hnumber hwhole himplicit hbound
  obtain rfl := hordinal hcount
  refine ⟨_, hfound, ?_⟩
  rw [MemberValue.text_ordinal hreached (by omega)]

end Step

/-- An enum that counts from below zero to above it. -/
def levels : Declaration :=
  ⟨"Level", true,
    [⟨"Base", .reference (some "Depth") "Floor"⟩, ⟨"Low", .implicit⟩, ⟨"Mid", .implicit⟩,
      ⟨"High", .implicit⟩]⟩

def levelIndex : Index :=
  .ofModules
    [⟨"/level.ts", "/level",
      [⟨"Depth", true, [⟨"Floor", .literal (some .complement) (.number .one)⟩]⟩, levels], [],
      [.declared "Depth", .declared "Level"]⟩]

def levelBindings : BindingGraph := .build ⟨∅, [], none⟩ levelIndex []

end EnumInline.Enum
