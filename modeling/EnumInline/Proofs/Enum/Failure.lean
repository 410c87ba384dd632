import EnumInline.Proofs.Binding.Resolution
import EnumInline.Proofs.Enum.Evaluation
import EnumInline.Proofs.Enum.Faults

/-!
When an evaluation fails, and with what. A faulty member is noticed before any
value is found. Else the evaluation can only fail at a member that counts on
from a value which is no number; for that the value must be found, so that a
member behind a circle or behind an import that leads nowhere does no harm.
-/

namespace EnumInline

/-- Only the names that a module imports lead anywhere from it. -/
def BindingGraph.ImportsStated (bindings : BindingGraph) : Prop :=
  ∀ module name target, bindings.importTarget? module name = some target →
    bindings.hasImport module name = true

theorem BindingGraph.build_importsStated {resolver : Resolver}
    {index : Enum.Index} {modules : List SourceModule} :
    (build resolver index modules).ImportsStated := by
  intro module name target htarget
  rw [hasImport, facts_build]
  exact Std.ExtTreeMap.contains_iff_mem.mpr
    (BindingFacts.mem_own.mpr (exists_fact_of_importTarget? htarget))

namespace Enum

/-- A member without an initializer comes after one whose value is
no number. -/
def FollowsNonNumeric (index : Index) (bindings : BindingGraph) (key : MemberKey)
    (value : MemberValue) : Prop :=
  ∃ previous position initializer,
    IsMember index key (position + 1) .implicit ∧
      IsMember index ⟨key.declaration, previous⟩ position initializer ∧
      HasValue index bindings ⟨key.declaration, previous⟩ value ∧
      value.numeric? = none

variable {index : Index} {bindings : BindingGraph}

section Blocked

theorem Blocked.isMember {key : MemberKey} (h : Blocked index bindings key) :
    ∃ position initializer, IsMember index key position initializer := by
  have hawaits {target : MemberKey} (h : Awaits index bindings key target) :
      ∃ position initializer, IsMember index key position initializer := by
    cases h with
    | previous hmember _ => exact ⟨_, _, hmember⟩
    | reference hmember _ => exact ⟨_, _, hmember⟩
  obtain ⟨last, hchain, hlast⟩ := h
  cases Relation.ReflTransGen.cases_head hchain with
  | inr hstep =>
    obtain ⟨next, hstep, _⟩ := hstep
    exact hawaits hstep
  | inl hsame =>
    subst hsame
    rcases hlast with hcycle | ⟨_, _, _, hmember, _⟩
    · obtain ⟨next, hstep, _⟩ := Relation.TransGen.head'_iff.mp hcycle
      exact hawaits hstep
    · exact ⟨_, _, hmember⟩

variable (hdistinct : DistinctMembers index)

include hdistinct

/-- A qualifier that stands for nothing blocks no member. -/
theorem not_blocked_of_unknownQualifier (hstated : bindings.ImportsStated)
    {key : MemberKey} {position : Nat} {qualifier member : String}
    (hmember : IsMember index key position (.reference (some qualifier) member))
    (hown : ⟨key.declaration.module, qualifier⟩ ∉ index)
    (himport : bindings.hasImport key.declaration.module qualifier = false) :
    ¬ Blocked index bindings key := by
  intro h
  have hnone (target : DeclarationKey) :
      bindings.importTarget? key.declaration.module qualifier ≠ some target := by
    intro htarget
    rw [hstated _ _ _ htarget] at himport
    cases himport
  have hawaits (target : MemberKey) : ¬ Awaits index bindings key target := by
    intro hawaits
    cases hawaits with
    | previous hsame _ => cases (hmember.unique hdistinct hsame).2
    | reference hsame htarget =>
      cases (hmember.unique hdistinct hsame).2
      cases htarget with
      | own hthere => exact hown hthere
      | imported _ htarget => exact hnone _ htarget
  obtain ⟨_, _, _, hsame, hunlinked⟩ := h.of_not_awaits hawaits
  cases (hmember.unique hdistinct hsame).2
  cases hunlinked with
  | unresolved _ hname _ =>
    rw [hname] at himport
    cases himport
  | unknown _ htarget _ => exact hnone _ htarget

theorem Blocked.not_fault (hstated : bindings.ImportsStated) {key : MemberKey}
    {position : Nat} {cause : MemberCause} (h : Blocked index bindings key) :
    ¬ Fault index bindings key position cause := by
  intro hfault
  cases hfault with
  | unsupported hmember =>
    exact not_blocked_of_constant hdistinct hmember (by simp) (by simp) h
  | notAMember hmember hname =>
    rcases h.of_awaits hdistinct (.reference hmember .same) with hnext | hnowhere
    · obtain ⟨there, initializer, hthere⟩ := hnext.isMember
      exact hname there initializer hthere
    · obtain ⟨_, _, _, hsame, _⟩ := hnowhere
      cases (hmember.unique hdistinct hsame).2
  | @unknownQualifier qualifier member hmember hown himport =>
    exact not_blocked_of_unknownQualifier hdistinct hstated hmember hown himport h
  | noSuchMember hmember htarget hindex hname =>
    rcases h.of_awaits hdistinct (.reference hmember htarget) with hnext | hnowhere
    · obtain ⟨there, initializer, hthere⟩ := hnext.isMember
      exact hname there initializer hthere
    · exact not_leadsNowhere_of_denotes hdistinct hmember htarget hindex hnowhere

theorem Blocked.not_followsNonNumeric {key : MemberKey} {value : MemberValue}
    (h : Blocked index bindings key) :
    ¬ FollowsNonNumeric index bindings key value := by
  rintro ⟨previous, position, initializer, hmember, hprevious, hvalue, _⟩
  have hawaits : Awaits index bindings key ⟨key.declaration, previous⟩ :=
    .previous hmember hprevious
  rcases h.of_awaits hdistinct hawaits with hblocked | hnowhere
  · exact hvalue.not_blocked hdistinct hblocked
  · obtain ⟨_, _, _, hsame, _⟩ := hnowhere
    cases (hmember.unique hdistinct hsame).2

end Blocked

namespace Evaluation

variable (hdistinct : DistinctMembers index)

include hdistinct

/-- The failure of a propagation is that of a member which counts on from
no number. -/
theorem followsNonNumeric_of_fails {found : List (MemberKey × Origin)}
    (hfound : origins index bindings index.toList = .ok found)
    {failure : MemberFailure}
    (h : (propagation found).Fails (seeds found) failure) :
    ∃ key value, FollowsNonNumeric index bindings key value ∧
      failure = ⟨key.declaration.module, key.declaration.name, key.member,
        .followsNonNumeric value.text⟩ := by
  obtain ⟨values, awaited, key, value, _, harrives, hedge, _, hderive⟩ := h
  obtain ⟨rule, hmem⟩ := mem_dependents.mp hedge
  have hrule := getElem?_rules_of_mem hfound (hdistinct key.declaration) hmem
  obtain ⟨position, initializer, hmember, hfits⟩ :=
    (mem_origins_iff hdistinct hfound).mp hmem
  have hvalue := hasValue_of_arrives hdistinct hfound harrives
  change derive (rules found) key value = _ at hderive
  cases hfits with
  | next hprevious =>
    simp only [derive, hrule, MemberValue.next?] at hderive
    cases hnumber : value.numeric? with
    | some number => simp [hnumber] at hderive
    | none =>
      rw [hnumber] at hderive
      cases hderive
      exact ⟨key, value, ⟨_, _, _, hmember, hprevious, hvalue, hnumber⟩, rfl⟩
  | reference htarget _ => simp [derive, hrule] at hderive

/-- An evaluation does not pass over a member that counts on from no number. -/
theorem not_followsNonNumeric_of_evaluate {values : Values}
    (h : evaluate index bindings = .ok values) {key : MemberKey}
    {value : MemberValue} : ¬ FollowsNonNumeric index bindings key value := by
  rintro ⟨previous, position, initializer, hmember, hprevious, hvalue, hnumber⟩
  obtain ⟨found, hfound, hconsistent⟩ := evaluate_ok h
  have horigin : IsOrigin index bindings key
      (.waits ⟨key.declaration, previous⟩ .increment) :=
    ⟨_, _, hmember, .next hprevious⟩
  have hmem := mem_values_of_waits hfound hconsistent (hdistinct _)
    ((mem_origins_iff hdistinct hfound).mpr horigin)
    (mem_values_of_hasValue hdistinct hfound hconsistent hvalue)
  obtain ⟨own, hown⟩ := KeyedList.mem_iff_exists.mp hmem
  cases hasValue_of_evaluate hdistinct h hown with
  | literal hsame => cases (hmember.unique hdistinct hsame).2
  | first hsame => cases (hmember.unique hdistinct hsame).1
  | reference hsame _ _ => cases (hmember.unique hdistinct hsame).2
  | next hsame hbefore hthere hcount =>
    have hawaits : Awaits index bindings ⟨_, _⟩ ⟨_, _⟩ :=
      .previous hmember hprevious
    cases hawaits.unique hdistinct (.previous hsame hbefore)
    obtain rfl := hvalue.unique hdistinct hthere
    rw [hnumber] at hcount
    cases hcount

/-- An evaluation fails at the first faulty member, or else at one that counts
on from no number. -/
theorem evaluate_error {failure : MemberFailure}
    (h : evaluate index bindings = .error failure) :
    (∃ key position cause, FirstFault index bindings key position cause ∧
      failure =
        ⟨key.declaration.module, key.declaration.name, key.member, cause⟩) ∨
      ((∀ key position cause, ¬ Fault index bindings key position cause) ∧
        ∃ key value, FollowsNonNumeric index bindings key value ∧
          failure = ⟨key.declaration.module, key.declaration.name, key.member,
            .followsNonNumeric value.text⟩) := by
  unfold evaluate at h
  split at h
  case h_1 cause horigins =>
    cases h
    exact Or.inl (origins_error hdistinct horigins)
  case h_2 found hfound =>
    have hfails := Propagation.propagate_error h
    exact Or.inr ⟨fun _ _ _ => not_faulty_of_origins hdistinct hfound,
      followsNonNumeric_of_fails hdistinct hfound hfails⟩

theorem evaluate_of_fault {key : MemberKey} {position : Nat} {cause : MemberCause}
    (h : Fault index bindings key position cause) :
    ∃ failure, evaluate index bindings = .error failure := by
  cases hevaluate : evaluate index bindings with
  | error failure => exact ⟨failure, rfl⟩
  | ok values =>
    obtain ⟨found, hfound, _⟩ := evaluate_ok hevaluate
    exact absurd h (not_faulty_of_origins hdistinct hfound)

end Evaluation

/-- An evaluation fails exactly if a member is faulty or follows a value which
is no number. If there are faulty members, the failure names the first of them;
members that are blocked never make an evaluation fail, as long as names lead
anywhere only where they are imported, which holds for the bindings of modules. -/
theorem evaluate_error_iff (hdistinct : DistinctMembers index)
    (bindings : BindingGraph) :
    ((∃ failure, evaluate index bindings = .error failure) ↔
      (∃ key position cause, Fault index bindings key position cause) ∨
        ∃ key value, FollowsNonNumeric index bindings key value) ∧
    ((∃ key position cause, Fault index bindings key position cause) →
      ∃ key position cause, FirstFault index bindings key position cause ∧
        evaluate index bindings = .error
          ⟨key.declaration.module, key.declaration.name, key.member, cause⟩) ∧
    ((∀ key position cause, ¬ Fault index bindings key position cause) →
      ∀ failure, evaluate index bindings = .error failure →
        ∃ key value, FollowsNonNumeric index bindings key value ∧
          failure = ⟨key.declaration.module, key.declaration.name, key.member,
            .followsNonNumeric value.text⟩) ∧
    (bindings.ImportsStated → ∀ key, Blocked index bindings key →
      (∀ position cause, ¬ Fault index bindings key position cause) ∧
        ∀ value, ¬ FollowsNonNumeric index bindings key value) ∧
    (∀ resolver modules, bindings = .build resolver index modules →
      ∀ key, Blocked index bindings key →
        (∀ position cause, ¬ Fault index bindings key position cause) ∧
          ∀ value, ¬ FollowsNonNumeric index bindings key value) := by
  have hharmless (hstated : bindings.ImportsStated) (key : MemberKey)
      (hblocked : Blocked index bindings key) :
      (∀ position cause, ¬ Fault index bindings key position cause) ∧
        ∀ value, ¬ FollowsNonNumeric index bindings key value :=
    ⟨fun _ _ => hblocked.not_fault hdistinct hstated,
      fun _ => hblocked.not_followsNonNumeric hdistinct⟩
  refine ⟨⟨?_, ?_⟩, ?_, ?_, hharmless, ?_⟩
  · rintro ⟨failure, h⟩
    rcases Evaluation.evaluate_error hdistinct h with
      ⟨key, position, cause, hfirst, _⟩ | ⟨_, key, value, hfollows, _⟩
    · exact Or.inl ⟨key, position, cause, hfirst.1⟩
    · exact Or.inr ⟨key, value, hfollows⟩
  · rintro (⟨key, position, cause, hfault⟩ | ⟨key, value, hfollows⟩)
    · exact Evaluation.evaluate_of_fault hdistinct hfault
    · cases h : evaluate index bindings with
      | error failure => exact ⟨failure, rfl⟩
      | ok values =>
        exact absurd hfollows
          (Evaluation.not_followsNonNumeric_of_evaluate hdistinct h)
  · rintro ⟨key, position, cause, hfault⟩
    obtain ⟨failure, h⟩ := Evaluation.evaluate_of_fault hdistinct hfault
    rcases Evaluation.evaluate_error hdistinct h with
      ⟨first, there, reason, hfirst, rfl⟩ | ⟨hnone, _⟩
    · exact ⟨first, there, reason, hfirst, h⟩
    · exact absurd hfault (hnone key position cause)
  · intro hnone failure h
    rcases Evaluation.evaluate_error hdistinct h with
      ⟨key, position, cause, hfirst, _⟩ | ⟨_, hfollows⟩
    · exact absurd hfirst.1 (hnone key position cause)
    · exact hfollows
  · rintro resolver modules rfl
    exact hharmless BindingGraph.build_importsStated

/-- A module with a member that counts on from a text, and a later one with a
faulty member. -/
def tickets : List SourceModule :=
  [⟨"/desk.ts", "/desk",
      [⟨"Status", true,
        [⟨"Open", .literal none (.string "open")⟩, ⟨"Next", .implicit⟩]⟩],
      [], [.declared "Status"]⟩,
    ⟨"/queue.ts", "/queue",
      [⟨"Queue", true,
        [⟨"Main", .reference (some "Status") "Open"⟩, ⟨"Odd", .unsupported .call⟩,
          ⟨"Even", .unsupported .binary⟩]⟩],
      [⟨"./desk", [⟨"Status", "Status"⟩]⟩], []⟩]

def ticketIndex : Index := .ofModules tickets

def ticketBindings : BindingGraph :=
  .build ⟨.ofList (tickets.map (·.id)), [], none⟩ ticketIndex tickets

theorem evaluate_error_iff_tickets :
    DistinctMembers ticketIndex ∧
      FollowsNonNumeric ticketIndex ticketBindings ⟨⟨"/desk", "Status"⟩, "Next"⟩
        (.ofLiteral (.string "open")) ∧
      ∃ position, FirstFault ticketIndex ticketBindings
        ⟨⟨"/queue", "Queue"⟩, "Odd"⟩ position (.unsupported "call expression") := by
  have hdistinct : DistinctMembers ticketIndex := by decide +kernel
  have hopen : IsMember ticketIndex ⟨⟨"/desk", "Status"⟩, "Open"⟩ 0
      (.literal none (.string "open")) := by
    decide +kernel
  have hnext : IsMember ticketIndex ⟨⟨"/desk", "Status"⟩, "Next"⟩ 1 .implicit := by
    decide +kernel
  have hodd : IsMember ticketIndex ⟨⟨"/queue", "Queue"⟩, "Odd"⟩ 1
      (.unsupported .call) := by
    decide +kernel
  obtain ⟨_, hfirst, _, _⟩ := evaluate_error_iff hdistinct ticketBindings
  obtain ⟨⟨⟨module, name⟩, member⟩, position, cause, hfault, hfailure⟩ :=
    hfirst ⟨_, _, _, .unsupported hodd⟩
  have hfind : evaluate ticketIndex ticketBindings =
      .error ⟨"/queue", "Queue", "Odd", .unsupported "call expression"⟩ := by
    decide +kernel
  cases hfind.symm.trans hfailure
  exact ⟨hdistinct, ⟨"Open", 0, _, hnext, hopen, .literal hopen, rfl⟩,
    position, hfault⟩

end Enum

end EnumInline
