import EnumInline.Proofs.Enum.Origins
import EnumInline.Proofs.Propagation

/-!
An evaluation that does not fail finds the value of every member that has one,
and no other values. The members without a value are those that are blocked.
-/

namespace EnumInline.Enum.Evaluation

open KeyedList

section Edges

variable {found : List (MemberKey × Origin)}

theorem mem_seeds {key : MemberKey} {value : MemberValue} :
    (key, value) ∈ seeds found ↔ (key, .value value) ∈ found := by
  rw [seeds, List.mem_filterMap]
  constructor
  · rintro ⟨⟨seeded, origin⟩, hmem, hseed⟩
    cases origin with
    | value own =>
      cases hseed
      exact hmem
    | waits awaited rule => cases hseed
    | nowhere => cases hseed
  · intro hmem
    exact ⟨(key, .value value), hmem, rfl⟩

/-- The edge that an origin makes, from the awaited member to the one
that waits. -/
def edge? : MemberKey × Origin → Option (MemberKey × MemberKey)
  | (key, .waits awaited _) => some (awaited, key)
  | _ => none

/-- The rule that an origin states. -/
def rule? : MemberKey × Origin → Option (MemberKey × Rule)
  | (key, .waits _ rule) => some (key, rule)
  | _ => none

theorem dependents_eq {awaited : MemberKey} :
    (propagation found).dependents awaited =
      valuesFor (found.filterMap edge?) awaited := by
  change (waiting found).getD awaited [] = _
  unfold waiting
  rw [getD_foldl edge?]
  · simp
  · rintro map ⟨waits, origin⟩ hedge
    cases origin with
    | waits target rule => cases hedge
    | value value => rfl
    | nowhere => rfl
  · rintro map ⟨waits, origin⟩ target key hedge
    cases origin with
    | waits awaited rule =>
      cases hedge
      rfl
    | value value => cases hedge
    | nowhere => cases hedge

theorem mem_dependents {key awaited : MemberKey} :
    key ∈ (propagation found).dependents awaited ↔
      ∃ rule, (key, .waits awaited rule) ∈ found := by
  rw [dependents_eq, mem_valuesFor, List.mem_filterMap]
  constructor
  · rintro ⟨⟨waits, origin⟩, hmem, hedge⟩
    cases origin with
    | waits target rule =>
      cases hedge
      exact ⟨rule, hmem⟩
    | value value => cases hedge
    | nowhere => cases hedge
  · rintro ⟨rule, hmem⟩
    exact ⟨_, hmem, rfl⟩

theorem getElem?_rules {key : MemberKey} {rule : Rule} :
    (rules found)[key]? = some rule ↔
      LastFor (found.filterMap rule?) key rule := by
  unfold rules
  rw [getElem?_foldl rule?]
  · simp
  · rintro map ⟨waits, origin⟩ hrule
    cases origin with
    | waits target rule => cases hrule
    | value value => rfl
    | nowhere => rfl
  · rintro map ⟨waits, origin⟩ key rule hrule
    cases origin with
    | waits awaited own =>
      cases hrule
      rfl
    | value value => cases hrule
    | nowhere => cases hrule

end Edges

section Start

variable {index : Index} {bindings : BindingGraph}
  {found : List (MemberKey × Origin)} {values : Values}

theorem found_enclose :
    (propagation found).Encloses (seeds found) (found.map Prod.fst) where
  seeds := by
    rintro ⟨key, value⟩ hseed
    exact List.mem_map.mpr ⟨_, mem_seeds.mp hseed, rfl⟩
  dependents := by
    intro awaited _ key hkey
    obtain ⟨rule, hmem⟩ := mem_dependents.mp hkey
    exact List.mem_map.mpr ⟨_, hmem, rfl⟩

/-- An evaluation that does not fail is a propagation from the origins of
all members. -/
theorem evaluate_ok (h : evaluate index bindings = .ok values) :
    ∃ found, origins index bindings index.toList = .ok found ∧
      (propagation found).Consistent (seeds found) [] values := by
  unfold evaluate at h
  split at h
  case h_1 => cases h
  case h_2 found hfound =>
    refine ⟨found, hfound, Propagation.propagate_ok found_enclose ?_ h⟩
    simp

theorem mem_values_of_seed
    (hconsistent : (propagation found).Consistent (seeds found) [] values)
    {key : MemberKey} {value : MemberValue}
    (hmem : (key, .value value) ∈ found) : key ∈ values := by
  obtain ⟨first, hfirst⟩ := exists_firstFor (mem_seeds.mpr hmem)
  exact mem_iff_exists.mpr ⟨first, hconsistent.seeded key first hfirst⟩

end Start

section Rules

variable {index : Index} {bindings : BindingGraph}
  {found : List (MemberKey × Origin)}
  (hfound : origins index bindings index.toList = .ok found)

include hfound

theorem getElem?_rules_of_mem {key awaited : MemberKey} {rule : Rule}
    (hdistinct : DistinctIn index key.declaration)
    (h : (key, .waits awaited rule) ∈ found) :
    (rules found)[key]? = some rule := by
  have hstated : (key, rule) ∈ found.filterMap rule? :=
    List.mem_filterMap.mpr ⟨_, h, rfl⟩
  obtain ⟨last, hlast⟩ := exists_lastFor hstated
  obtain ⟨⟨same, origin⟩, hmem, hrule⟩ := List.mem_filterMap.mp hlast.mem
  cases origin with
  | waits target own =>
    cases hrule
    cases (isOrigin_of_mem hfound hmem).unique_of_distinctIn hdistinct
      (isOrigin_of_mem hfound h)
    exact getElem?_rules.mpr hlast
  | value value => cases hrule
  | nowhere => cases hrule

theorem worth_of_seed {known : MemberKey → MemberValue → Prop} {key : MemberKey}
    {value : MemberValue} (h : (key, .value value) ∈ found) :
    ∃ declaration, index[key.declaration]? = some declaration ∧
      Worth index bindings known key.declaration declaration key.member value := by
  obtain ⟨position, initializer, hmember, hfits⟩ := isOrigin_of_mem hfound h
  obtain ⟨declaration, hindex, hmember⟩ := hmember
  cases hfits with
  | literal => exact ⟨declaration, hindex, .literal hmember⟩
  | first => exact ⟨declaration, hindex, .first hmember⟩

theorem worth_of_edge {known : MemberKey → MemberValue → Prop}
    {key awaited : MemberKey} {value derived : MemberValue}
    (hdistinct : DistinctIn index key.declaration)
    (hedge : key ∈ (propagation found).dependents awaited)
    (hderive : (propagation found).derive key value = .ok (some derived))
    (hknown : known awaited value) :
    ∃ declaration, index[key.declaration]? = some declaration ∧
      Worth index bindings known key.declaration declaration key.member
        derived := by
  obtain ⟨rule, hmem⟩ := mem_dependents.mp hedge
  have hrule := getElem?_rules_of_mem hfound hdistinct hmem
  obtain ⟨position, initializer, hmember, hfits⟩ := isOrigin_of_mem hfound hmem
  obtain ⟨declaration, hindex, hmember⟩ := hmember
  change derive (rules found) key value = _ at hderive
  cases hfits with
  | next hprevious =>
    obtain ⟨same, hsame, hprevious⟩ := hprevious
    obtain rfl : declaration = same := Option.some.inj (hindex.symm.trans hsame)
    simp only [derive, hrule, MemberValue.next?] at hderive
    cases hnumber : value.numeric? with
    | none => simp [hnumber] at hderive
    | some number =>
      obtain rfl : MemberValue.ordinal (number.add .one) = derived := by
        simpa [hnumber] using hderive
      exact ⟨declaration, hindex, .next hmember hprevious hknown hnumber⟩
  | reference htarget _ =>
    obtain rfl : value = derived := by simpa [derive, hrule] using hderive
    exact ⟨declaration, hindex, .reference hmember htarget hknown⟩

theorem mem_values_of_waits {values : Values}
    (hconsistent : (propagation found).Consistent (seeds found) [] values)
    {key awaited : MemberKey} {rule : Rule}
    (hdistinct : DistinctIn index key.declaration)
    (hmem : (key, .waits awaited rule) ∈ found) (hawaited : awaited ∈ values) :
    key ∈ values := by
  obtain ⟨value, hvalue⟩ := mem_iff_exists.mp hawaited
  have hedge := mem_dependents.mpr ⟨rule, hmem⟩
  rcases hconsistent.served _ value hvalue (by simp) key hedge with hkey | hnone
  · exact hkey
  · have hrule := getElem?_rules_of_mem hfound hdistinct hmem
    change derive (rules found) key value = _ at hnone
    cases rule with
    | copy => simp [derive, hrule] at hnone
    | increment =>
      cases hnext : value.next? with
      | none => simp [derive, hrule, hnext] at hnone
      | some next => simp [derive, hrule, hnext] at hnone

end Rules

section Found

variable {index : Index} {bindings : BindingGraph}
  {found : List (MemberKey × Origin)} (hdistinct : DistinctMembers index)
  (hfound : origins index bindings index.toList = .ok found)

include hdistinct hfound

theorem hasValue_of_arrives {values : Values} {key : MemberKey}
    {value : MemberValue}
    (h : (propagation found).Arrives (seeds found) values key value) :
    HasValue index bindings key value := by
  induction h with
  | seed hseed _ =>
    obtain ⟨declaration, hindex, hworth⟩ :=
      worth_of_seed hfound (mem_seeds.mp hseed.mem)
    exact hworth.hasValue hindex
  | @step awaited key value derived _ hedge hderive _ ih =>
    obtain ⟨declaration, hindex, hworth⟩ :=
      worth_of_edge hfound (hdistinct key.declaration) hedge hderive ih
    exact hworth.hasValue hindex

/-- What a member awaits is a member too, if the member does not
lead nowhere. -/
theorem exists_member_of_awaits {key target : MemberKey}
    (hawaits : Awaits index bindings key target)
    (hsomewhere : ¬ LeadsNowhere index bindings key) :
    ∃ position initializer, IsMember index target position initializer := by
  cases hawaits with
  | previous _ hprevious => exact ⟨_, _, hprevious⟩
  | reference hmember htarget =>
    obtain ⟨origin, _, position, initializer, hsame, hfits⟩ :=
      exists_origin hfound hmember
    cases (hmember.unique hdistinct hsame).2
    cases hfits with
    | reference hdenotes hthere =>
      rw [htarget.unique hdenotes]
      exact ⟨_, _, hthere⟩
    | nowhere hunlinked => exact absurd ⟨_, _, _, hmember, hunlinked⟩ hsomewhere

/-- All that is reached along the chain of a member which is not blocked
are members. -/
theorem exists_member_of_reached {key last : MemberKey} {position : Nat}
    {initializer : Initializer}
    (hmember : IsMember index key position initializer)
    (hfree : ¬ Blocked index bindings key)
    (hchain : Relation.ReflTransGen (Awaits index bindings) key last) :
    ∃ position initializer, IsMember index last position initializer := by
  induction hchain with
  | refl => exact ⟨_, _, hmember⟩
  | tail hreached hawaits _ =>
    apply exists_member_of_awaits hdistinct hfound hawaits
    intro hnowhere
    exact hfree ⟨_, hreached, Or.inr hnowhere⟩

/-- The chain of a member that is not blocked ends. -/
theorem acc_of_not_blocked {key : MemberKey} {position : Nat}
    {initializer : Initializer}
    (hmember : IsMember index key position initializer)
    (hfree : ¬ Blocked index bindings key) :
    Acc (Function.swap (Awaits index bindings)) key := by
  apply acc_of_finite
  · apply (List.finite_toSet (found.map Prod.fst)).subset
    intro last hchain
    obtain ⟨_, _, hlast⟩ :=
      exists_member_of_reached hdistinct hfound hmember hfree hchain
    obtain ⟨origin, hmem, _⟩ := exists_origin hfound hlast
    exact List.mem_map.mpr ⟨_, hmem, rfl⟩
  · intro last hchain hcycle
    exact hfree ⟨last, hchain, Or.inl hcycle⟩

section Consistent

variable {values : Values}
  (hconsistent : (propagation found).Consistent (seeds found) [] values)

include hconsistent

theorem mem_values_of_hasValue {key : MemberKey} {value : MemberValue}
    (h : HasValue index bindings key value) : key ∈ values := by
  induction h with
  | literal hmember =>
    exact mem_values_of_seed hconsistent
      ((mem_origins_iff hdistinct hfound).mpr ⟨_, _, hmember, .literal⟩)
  | first hmember =>
    exact mem_values_of_seed hconsistent
      ((mem_origins_iff hdistinct hfound).mpr ⟨_, _, hmember, .first⟩)
  | next hmember hprevious _ _ ih =>
    exact mem_values_of_waits hfound hconsistent (hdistinct _)
      ((mem_origins_iff hdistinct hfound).mpr ⟨_, _, hmember, .next hprevious⟩) ih
  | reference hmember htarget hvalue ih =>
    obtain ⟨_, _, hthere⟩ := hvalue.isMember
    exact mem_values_of_waits hfound hconsistent (hdistinct _)
      ((mem_origins_iff hdistinct hfound).mpr ⟨_, _, hmember,
        .reference htarget hthere⟩) ih

/-- A member that is not blocked has a value. The induction follows its chain
from the end. -/
theorem mem_values_of_not_blocked {key : MemberKey} {position : Nat}
    {initializer : Initializer}
    (hmember : IsMember index key position initializer)
    (hfree : ¬ Blocked index bindings key) : key ∈ values := by
  have hacc := acc_of_not_blocked hdistinct hfound hmember hfree
  induction hacc generalizing position initializer with
  | intro key _ ih =>
    have hnext {target : MemberKey} {there : Nat} {other : Initializer}
        (hawaits : Awaits index bindings key target)
        (htarget : IsMember index target there other) :
        target ∈ values := by
      apply ih target hawaits htarget
      intro hblocked
      exact hfree (hblocked.of_reached (.single hawaits))
    obtain ⟨origin, hmem, there, other, hsame, hfits⟩ :=
      exists_origin hfound hmember
    cases hfits with
    | literal => exact mem_values_of_seed hconsistent hmem
    | first => exact mem_values_of_seed hconsistent hmem
    | next hprevious =>
      exact mem_values_of_waits hfound hconsistent (hdistinct _) hmem
        (hnext (.previous hsame hprevious) hprevious)
    | reference htarget hthere =>
      exact mem_values_of_waits hfound hconsistent (hdistinct _) hmem
        (hnext (.reference hsame htarget) hthere)
    | nowhere hunlinked =>
        exact absurd ⟨key, .refl, Or.inr ⟨_, _, _, hsame, hunlinked⟩⟩ hfree

end Consistent

end Found

section Values

variable {index : Index} {bindings : BindingGraph} {values : Values}

theorem hasValue_of_evaluate (hdistinct : DistinctMembers index)
    (h : evaluate index bindings = .ok values) {key : MemberKey}
    {value : MemberValue} (hvalue : values[key]? = some value) :
    HasValue index bindings key value := by
  obtain ⟨found, hfound, hconsistent⟩ := evaluate_ok h
  exact hasValue_of_arrives hdistinct hfound (hconsistent.arrives key value hvalue)

/-- A value that is found for a member is what its enum makes it worth, given
the other values that are found. -/
theorem worth_of_evaluate (h : evaluate index bindings = .ok values)
    {key : MemberKey} (hdistinct : DistinctIn index key.declaration)
    {value : MemberValue} (hvalue : values[key]? = some value) :
    ∃ declaration, index[key.declaration]? = some declaration ∧
      Worth index bindings (fun key value => values[key]? = some value)
        key.declaration declaration key.member value := by
  obtain ⟨found, hfound, hconsistent⟩ := evaluate_ok h
  cases hconsistent.arrives key value hvalue with
  | seed hseed _ => exact worth_of_seed hfound (mem_seeds.mp hseed.mem)
  | step hawaited hedge hderive _ =>
    exact worth_of_edge hfound hdistinct hedge hderive hawaited.getElem?

theorem getElem?_of_hasValue (hdistinct : DistinctMembers index)
    (h : evaluate index bindings = .ok values) {key : MemberKey}
    {value : MemberValue} (hvalue : HasValue index bindings key value) :
    values[key]? = some value := by
  obtain ⟨found, hfound, hconsistent⟩ := evaluate_ok h
  have hmem := mem_values_of_hasValue hdistinct hfound hconsistent hvalue
  obtain ⟨other, hother⟩ := mem_iff_exists.mp hmem
  rw [hother, (hasValue_of_evaluate hdistinct h hother).unique hdistinct hvalue]

end Values

end Evaluation

variable {index : Index} {bindings : BindingGraph} {values : Values}

/-- Two modules with a value across them, a member that refers to itself, and
one behind an import of a module that is not there. -/
def paints : List SourceModule :=
  [⟨"/color.ts", "/color",
      [⟨"Color", true,
        [⟨"Red", .implicit⟩, ⟨"Green", .implicit⟩,
          ⟨"Odd", .reference none "Odd"⟩]⟩],
      [], [.declared "Color"]⟩,
    ⟨"/paint.ts", "/paint",
      [⟨"Paint", true,
        [⟨"Wall", .reference (some "Color") "Green"⟩, ⟨"Door", .implicit⟩,
        ⟨"Roof", .reference (some "Metal") "Tin"⟩]⟩],
      [⟨"./color", [⟨"Color", "Color"⟩]⟩, ⟨"./metal", [⟨"Metal", "Metal"⟩]⟩], []⟩]

def paintIndex : Index := .ofModules paints

def paintBindings : BindingGraph :=
  .build ⟨.ofList (paints.map (·.id)), [], none⟩ paintIndex paints

end EnumInline.Enum
