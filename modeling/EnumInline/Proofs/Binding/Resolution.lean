import EnumInline.Binding.Graph
import EnumInline.Proofs.Binding.Meaning
import EnumInline.Proofs.Propagation

/-!
The graph of a project gives a declaration to the bindings that stand for one,
and to no others. The edges of the propagation are the steps from a binding to
the one it awaits, taken backwards. Each of its nodes has a fact, or is one of
the names with a fact in a module that exports all names of another; this
bounds their number.
-/

namespace EnumInline.BindingGraph

open BindingFacts KeyedList

section Edges

variable {facts : BindingFacts}

/-- The edge that a fact makes, from the binding that is followed to the one
that follows it. -/
def edge? : Binding × BindingFact → Option (Binding × Binding)
  | (_, .declared _) => none
  | (binding, .follows target) => some (target, binding)

theorem getD_followersOf {target : Binding} :
    (followersOf facts).getD target [] =
      valuesFor (facts.own.toList.filterMap edge?) target := by
  unfold followersOf
  rw [getD_foldl edge?]
  · simp
  · rintro map ⟨follower, fact⟩ hedge
    cases fact with
    | declared key => rfl
    | follows followed => cases hedge
  · rintro map ⟨follower, fact⟩ key value hedge
    cases fact with
    | declared key => cases hedge
    | follows followed =>
      cases hedge
      rfl

theorem mem_followersOf {binding target : Binding} :
    binding ∈ (followersOf facts).getD target [] ↔
      facts.own[binding]? = some (.follows target) := by
  rw [getD_followersOf, mem_valuesFor, List.mem_filterMap,
    ← Std.ExtTreeMap.mem_toList_iff_getElem?_eq_some]
  constructor
  · rintro ⟨⟨follower, fact⟩, hmem, hedge⟩
    cases fact with
    | declared key => cases hedge
    | follows followed =>
      cases hedge
      exact hmem
  · intro hmem
    exact ⟨(binding, .follows target), hmem, rfl⟩

theorem getD_starImportersOf {source : String} :
    (starImportersOf facts).getD source [] =
      valuesFor (facts.stars.toList.filterMap fun star =>
        some (star.source, star.importer)) source := by
  unfold starImportersOf
  rw [getD_foldl fun star : StarExport => some (star.source, star.importer)]
  · simp
  · intro map star hstar
    cases hstar
  · intro map star key value hstar
    cases hstar
    rfl

theorem mem_starImportersOf {source importer : String} :
    importer ∈ (starImportersOf facts).getD source [] ↔
      ⟨source, importer⟩ ∈ facts.stars := by
  rw [getD_starImportersOf, mem_valuesFor, List.mem_filterMap]
  constructor
  · rintro ⟨star, hmem, hstar⟩
    cases hstar
    exact Std.ExtTreeSet.mem_toList.mp hmem
  · intro hmem
    exact ⟨⟨source, importer⟩, Std.ExtTreeSet.mem_toList.mpr hmem, rfl⟩

theorem mem_forwarded {binding target : Binding} :
    binding ∈ forwarded facts (starImportersOf facts) target ↔
      ∃ source importer name,
        target = .exported ⟨source, name⟩ ∧
          binding = .exported ⟨importer, name⟩ ∧ name ≠ "default" ∧
          ⟨source, importer⟩ ∈ facts.stars ∧
          .exported ⟨importer, name⟩ ∉ facts.own := by
  cases target with
  | imported key => simp [forwarded]
  | exported key =>
    obtain ⟨source, name⟩ := key
    by_cases hname : name = "default"
    · simp [forwarded, hname]
    · simp only [forwarded, hname, if_false, List.mem_filterMap,
        mem_starImportersOf]
      constructor
      · rintro ⟨importer, hstar, hbinding⟩
        split at hbinding
        case isTrue => cases hbinding
        case isFalse hexplicit =>
          cases hbinding
          refine ⟨source, importer, name, rfl, rfl, hname, hstar, ?_⟩
          simpa [isExplicit] using hexplicit
      · rintro ⟨source, importer, name, htarget, rfl, _, hstar, hown⟩
        cases htarget
        exact ⟨importer, hstar, by simp [isExplicit, hown]⟩

end Edges

variable {resolver : Resolver} {index : Enum.Index} {modules : List SourceModule}

theorem facts_build :
    (build resolver index modules).facts = ofModules resolver index modules := by
  unfold build
  dsimp only
  split
  rfl

/-- The nodes that a binding hands its declaration to are those that
await it. -/
theorem mem_dependents {binding target : Binding} :
    binding ∈ (propagation (ofModules resolver index modules)).dependents target ↔
      Awaits resolver index modules binding target := by
  simp only [propagation, List.mem_append, mem_followersOf, mem_forwarded,
    getElem?_own, mem_own,
    mem_stars]
  constructor
  · rintro (hfact | ⟨source, importer, name, rfl, rfl, hname, hstar, hown⟩)
    · exact .fact hfact
    · exact .star hstar hname fun fact hfact => hown ⟨fact, hfact⟩
  · rintro (hfact | ⟨hstar, hname, hfact⟩)
    · exact Or.inl hfact
    · exact Or.inr ⟨_, _, _, rfl, rfl, hname, hstar, fun ⟨fact, h⟩ => hfact fact h⟩

theorem mem_seeds {binding : Binding} {key : DeclarationKey} :
    (binding, key) ∈ seeds (ofModules resolver index modules) ↔
      IsFact resolver index modules binding (.declared key) := by
  rw [← getElem?_own, ← Std.ExtTreeMap.mem_toList_iff_getElem?_eq_some, seeds,
    List.mem_filterMap]
  constructor
  · rintro ⟨⟨stated, fact⟩, hmem, hseed⟩
    cases fact with
    | declared declared =>
      cases hseed
      exact hmem
    | follows target => cases hseed
  · intro hmem
    exact ⟨(binding, .declared key), hmem, rfl⟩

/-- The bindings that can get a declaration. -/
def candidates (facts : BindingFacts) : List Binding :=
  facts.own.keys ++ facts.own.keys.flatMap fun binding =>
    facts.stars.toList.map fun star => .exported ⟨star.importer, binding.key.name⟩

theorem length_candidates {facts : BindingFacts} :
    (candidates facts).length = size facts := by
  simp [candidates, size, List.length_flatMap, Nat.mul_add]

theorem exists_name_of_mem_candidates {facts : BindingFacts} {binding : Binding}
    (h : binding ∈ candidates facts) :
    ∃ stated ∈ facts.own, stated.key.name = binding.key.name := by
  rcases List.mem_append.mp h with hown | hstar
  · exact ⟨binding, Std.ExtTreeMap.mem_keys.mp hown, rfl⟩
  · obtain ⟨stated, hstated, hbinding⟩ := List.mem_flatMap.mp hstar
    obtain ⟨star, _, rfl⟩ := List.mem_map.mp hbinding
    exact ⟨stated, Std.ExtTreeMap.mem_keys.mp hstated, rfl⟩

theorem candidates_enclose :
    (propagation (ofModules resolver index modules)).Encloses
      (seeds (ofModules resolver index modules))
      (candidates (ofModules resolver index modules)) where
  seeds := by
    rintro ⟨binding, key⟩ hseed
    have hown : binding ∈ (ofModules resolver index modules).own :=
      mem_own.mpr ⟨_, mem_seeds.mp hseed⟩
    exact List.mem_append_left _ (Std.ExtTreeMap.mem_keys.mpr hown)
  dependents := by
    intro target htarget binding hbinding
    cases mem_dependents.mp hbinding with
    | fact hfact =>
      exact List.mem_append_left _
        (Std.ExtTreeMap.mem_keys.mpr (mem_own.mpr ⟨_, hfact⟩))
    | star hstar hname hfact =>
      obtain ⟨stated, hstated, hkey⟩ := exists_name_of_mem_candidates htarget
      apply List.mem_append_right
      apply List.mem_flatMap.mpr
      refine ⟨stated, Std.ExtTreeMap.mem_keys.mpr hstated, List.mem_map.mpr ?_⟩
      exact ⟨_, Std.ExtTreeSet.mem_toList.mpr
        (mem_stars.mpr hstar), by rw [hkey]; rfl⟩

theorem length_candidates_le {facts : BindingFacts} :
    (candidates facts).length ≤ size facts + (seeds facts).length := by
  rw [length_candidates]
  omega

/-- The graph of a project is what its propagation finds. -/
theorem propagate_eq_resolved :
    (propagation (ofModules resolver index modules)).propagate
        (size (ofModules resolver index modules))
        (seeds (ofModules resolver index modules)) =
      .ok (build resolver index modules).resolved := by
  cases h : (propagation (ofModules resolver index modules)).propagate
      (size (ofModules resolver index modules))
        (seeds (ofModules resolver index modules)) with
  | error error => exact error.elim
  | ok resolved => simp only [build, h]

theorem build_consistent :
    (propagation (ofModules resolver index modules)).Consistent
      (seeds (ofModules resolver index modules)) []
      (build resolver index modules).resolved :=
  Propagation.propagate_ok candidates_enclose length_candidates_le
    propagate_eq_resolved

/-- Only what a binding stands for is found for it. -/
theorem reaches_of_resolved {binding : Binding} {key : DeclarationKey}
    (h : (build resolver index modules).resolved[binding]? = some key) :
    Reaches resolver index modules binding key := by
  have harrives := build_consistent.arrives binding key h
  clear h
  induction harrives with
  | seed hseed _ => exact .declared (mem_seeds.mp hseed.mem)
  | step _ hedge hderive _ ih =>
    cases hderive
    exact .awaits (mem_dependents.mp hedge) ih

theorem exists_fact_of_importTarget? {id name : String} {target : DeclarationKey}
    (h : (build resolver index modules).importTarget? id name = some target) :
    ∃ fact, IsFact resolver index modules (.imported ⟨id, name⟩) fact := by
  cases reaches_of_resolved h with
  | declared hfact => exact ⟨_, hfact⟩
  | awaits hawaits _ =>
    cases hawaits with
    | fact hfact => exact ⟨_, hfact⟩

/-- A binding that stands for a declaration gets one. -/
theorem resolved_of_reaches {binding : Binding} {key : DeclarationKey}
    (h : Reaches resolver index modules binding key) :
    ∃ found,
      (build resolver index modules).resolved[binding]? = some found := by
  induction h with
  | declared hfact =>
    obtain ⟨first, hfirst⟩ := exists_firstFor (mem_seeds.mpr hfact)
    exact ⟨first, build_consistent.seeded _ _ hfirst⟩
  | awaits hawaits _ ih =>
    obtain ⟨found, hfound⟩ := ih
    have hedge := mem_dependents.mpr hawaits
    rcases build_consistent.served _ found hfound (by simp) _ hedge with
      hmem | hnone
    · exact mem_iff_exists.mp hmem
    · cases hnone

/-- A binding whose fact follows another gets what the other gets. -/
theorem resolved_of_follows {binding target : Binding}
    (hfact : IsFact resolver index modules binding (.follows target)) :
    (build resolver index modules).resolved[binding]? =
      (build resolver index modules).resolved[target]? := by
  have hown {key : DeclarationKey}
      (h : (build resolver index modules).resolved[binding]? = some key) :
      (build resolver index modules).resolved[target]? = some key := by
    cases build_consistent.arrives binding key h with
    | seed hseed _ => cases hfact.unique (mem_seeds.mp hseed.mem)
    | step hawaited hedge hderive _ =>
      cases hderive
      cases mem_dependents.mp hedge with
      | fact hother =>
        cases hfact.unique hother
        exact hawaited.getElem?
      | star _ _ hnone => exact absurd hfact (hnone _)
  cases htarget : (build resolver index modules).resolved[target]? with
  | some key =>
    have hedge := mem_dependents.mpr (.fact hfact)
    rcases build_consistent.served target key htarget (by simp) binding hedge with
      hmem | hnone
    · obtain ⟨found, hfound⟩ := mem_iff_exists.mp hmem
      rw [hfound, ← hown hfound, htarget]
    · cases hnone
  | none =>
    cases hbinding : (build resolver index modules).resolved[binding]? with
    | none => rfl
    | some key => cases htarget.symm.trans (hown hbinding)

theorem not_resolved_iff {binding : Binding} :
    (build resolver index modules).resolved[binding]? = none ↔
      ∀ key, ¬ Reaches resolver index modules binding key := by
  constructor
  · intro hnone key hreaches
    obtain ⟨found, hfound⟩ := resolved_of_reaches hreaches
    simp [hnone] at hfound
  · intro hnever
    cases hfound : (build resolver index modules).resolved[binding]? with
    | none => rfl
    | some key => exact absurd (reaches_of_resolved hfound) (hnever key)

/-- The bindings of a project get exactly the declarations they stand for. A
binding that stands for one gets it; one that stands for several gets one of
them; the bindings of a chain that never comes to a declared one get none; and a
binding whose fact follows a binding without a declaration gets none, whatever
names are exported to it. -/
theorem build_sound_complete (resolver : Resolver) (index : Enum.Index)
    (modules : List SourceModule) :
    (∀ binding key, (build resolver index modules).resolved[binding]? = some key →
      Reaches resolver index modules binding key) ∧
    (∀ binding key, Reaches resolver index modules binding key →
      ∃ found, (build resolver index modules).resolved[binding]? = some found) ∧
    (∀ binding key, Reaches resolver index modules binding key →
      (∀ other, Reaches resolver index modules binding other → other = key) →
      (build resolver index modules).resolved[binding]? = some key) ∧
    (∀ chain : Binding → Prop,
      (∀ binding key, chain binding →
        ¬ IsFact resolver index modules binding (.declared key)) →
      (∀ binding target, chain binding →
        Awaits resolver index modules binding target →
        chain target) →
      ∀ binding, chain binding →
        (build resolver index modules).resolved[binding]? = none) ∧
    (∀ binding target, IsFact resolver index modules binding (.follows target) →
      (build resolver index modules).resolved[target]? = none →
      (build resolver index modules).resolved[binding]? = none) := by
  refine ⟨fun _ _ => reaches_of_resolved, fun _ _ => resolved_of_reaches,
    ?_, ?_, ?_⟩
  · intro binding key hreaches hunique
    obtain ⟨found, hfound⟩ := resolved_of_reaches hreaches
    rw [hfound, hunique found (reaches_of_resolved hfound)]
  · intro chain hdeclared hawaits binding hchain
    exact not_resolved_iff.mpr fun key =>
      not_reaches_of_closed hdeclared hawaits hchain
  · intro binding target hfact hnone
    apply not_resolved_iff.mpr
    intro key hreaches
    exact not_resolved_iff.mp hnone key ((reaches_iff_of_follows hfact).mp hreaches)

/-- A project with every form of import and export. In `/app`, the second import of `Tint` counts,
and an export that leads back to itself hides the `Tone` of `/theme`. -/
def palette : List SourceModule :=
  [⟨"/color.ts", "/color", [⟨"Color", true, []⟩, ⟨"Tone", false, []⟩], [],
      [.declared "Color", .ofLocal "Tone" "default"]⟩,
    ⟨"/theme.ts", "/theme", [], [⟨"./color", [⟨"Color", "Hue"⟩]⟩],
      [.ofLocal "Hue" "Tint", .reexport "./color" "default" "Tone", .star "./color"]⟩,
    ⟨"/app.ts", "/app", [],
      [⟨"./theme", [⟨"Tone", "Tint"⟩, ⟨"Tint", "Tint"⟩, ⟨"Color", "Color"⟩, ⟨"Tone", "Tone"⟩]⟩],
      [.star "./theme", .reexport "./app" "Tone" "Tone", .reexport "./none" "Color" "Color"]⟩]

def paletteResolver : Resolver := ⟨.ofList (palette.map (·.id)), [], none⟩

def paletteTargets : List (Binding × DeclarationKey) :=
  [(.imported ⟨"/app", "Color"⟩, ⟨"/color", "Color"⟩),
    (.imported ⟨"/app", "Tint"⟩, ⟨"/color", "Color"⟩),
    (.imported ⟨"/app", "Tone"⟩, ⟨"/color", "Tone"⟩),
    (.imported ⟨"/theme", "Hue"⟩, ⟨"/color", "Color"⟩),
    (.exported ⟨"/app", "Tint"⟩, ⟨"/color", "Color"⟩),
    (.exported ⟨"/color", "Color"⟩, ⟨"/color", "Color"⟩),
    (.exported ⟨"/color", "default"⟩, ⟨"/color", "Tone"⟩),
    (.exported ⟨"/theme", "Color"⟩, ⟨"/color", "Color"⟩),
    (.exported ⟨"/theme", "Tint"⟩, ⟨"/color", "Color"⟩),
    (.exported ⟨"/theme", "Tone"⟩, ⟨"/color", "Tone"⟩)]

theorem build_sound_complete_palette :
    (build paletteResolver (.ofModules palette) palette).resolved.toList = paletteTargets ∧
      (∀ binding key, (binding, key) ∈ paletteTargets →
        Reaches paletteResolver (.ofModules palette) palette binding key) ∧
      ∀ key, ¬ Reaches paletteResolver (.ofModules palette) palette
        (.exported ⟨"/app", "Tone"⟩) key := by
  have hgraph := build_sound_complete paletteResolver (.ofModules palette) palette
  have htargets : (build paletteResolver (.ofModules palette) palette).resolved.toList =
      paletteTargets := by
    decide +kernel
  refine ⟨htargets, ?_, ?_⟩
  · intro binding key hmem
    rw [← htargets, Std.ExtTreeMap.mem_toList_iff_getElem?_eq_some] at hmem
    exact hgraph.1 _ _ hmem
  · intro key hreaches
    obtain ⟨found, hfound⟩ := hgraph.2.1 _ _ hreaches
    rw [← Std.ExtTreeMap.mem_toList_iff_getElem?_eq_some, htargets] at hfound
    simp [paletteTargets] at hfound

end EnumInline.BindingGraph
