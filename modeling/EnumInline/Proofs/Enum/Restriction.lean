import EnumInline.Proofs.Binding.Restriction
import EnumInline.Proofs.Enum.Evaluation

/-!
What one more module changes in the values of a project whose other modules do
not refer to it. A reference in another module speaks of an enum in another
module, so that the origins of their members are what they are without the
added module, and no value comes to them from there.
-/

namespace EnumInline

open KeyedList

/-- A member of an enum in another module. -/
def MemberKey.isOutside (added : String) (key : MemberKey) : Bool :=
  key.declaration.isOutside added

namespace Enum

/-- An index and bindings are what is left of others without one module, to
which no import of the other modules leads. -/
structure AgreeOutside (index whole : Index) (bindings total : BindingGraph)
    (added : String) : Prop where
  index_eq : index = restrict (DeclarationKey.isOutside added) whole
  hasImport_eq : ∀ module name, module ≠ added →
    bindings.hasImport module name = total.hasImport module name
  importTarget?_eq : ∀ module name, module ≠ added →
    bindings.importTarget? module name = total.importTarget? module name
  target_ne : ∀ module name target, module ≠ added →
    total.importTarget? module name = some target → target.module ≠ added

namespace Evaluation

section Lists

variable {α β ε : Type} {f g : α → Except ε β} {keep : β → Bool}
  {keepItem : α → Bool}

theorem mapM_filter
    (hkeep : ∀ item result, f item = .ok result → keepItem item = keep result)
    (hsame : ∀ item, keepItem item = true → g item = f item) {items : List α}
    {results : List β} (h : items.mapM f = .ok results) :
    (items.filter keepItem).mapM g = .ok (results.filter keep) := by
  induction items generalizing results with
  | nil =>
    cases h
    rfl
  | cons item rest ih =>
    obtain ⟨result, others, hitem, hrest, rfl⟩ := mapM_cons_ok h
    have hresult := hkeep item result hitem
    cases hkept : keepItem item with
    | false =>
      rw [List.filter_cons_of_neg (by simp [hkept]),
        List.filter_cons_of_neg (by simp [← hresult, hkept])]
      exact ih hrest
    | true =>
      rw [List.filter_cons_of_pos hkept,
        List.filter_cons_of_pos (by rw [← hresult, hkept]), List.mapM_cons,
        hsame item hkept, hitem, ih hrest]
      rfl

end Lists

theorem places_filter {keep : DeclarationKey → Bool}
    {declarations : List (DeclarationKey × Declaration)} :
    places (declarations.filter fun entry => keep entry.1) =
      (places declarations).filter fun place => keep place.key := by
  induction declarations with
  | nil => rfl
  | cons entry rest ih =>
    obtain ⟨key, declaration⟩ := entry
    have hplaces : places ((key, declaration) :: rest) =
        placesOf key declaration none declaration.members ++ places rest := by
      simp [places]
    have hhere : ((placesOf key declaration none declaration.members).filter
        fun place => keep place.key) =
        if keep key then placesOf key declaration none declaration.members
        else [] := by
      have hkey (place : Place)
          (hplace : place ∈ placesOf key declaration none declaration.members) :
          keep place.key = keep key := by
        rw [(mem_placesOf.mp hplace).1]
      rw [List.filter_congr hkey]
      cases keep key <;> simp
    rw [hplaces, List.filter_append, ← ih, hhere]
    cases hkeep : keep key <;> simp [hkeep, places]

section Origins

variable {index whole : Index} {bindings total : BindingGraph} {added : String}
  (h : AgreeOutside index whole bindings total added)

include h

theorem getElem?_index_eq {key : DeclarationKey} (hkey : key.module ≠ added) :
    index[key]? = whole[key]? := by
  rw [h.index_eq]
  exact getElem?_restrict_of_keep (DeclarationKey.isOutside_iff.mpr hkey)

theorem qualified_eq {module qualifier : String} (hmodule : module ≠ added) :
    qualified index bindings module qualifier =
      qualified whole total module qualifier := by
  have hown : (⟨module, qualifier⟩ : DeclarationKey) ∈ index ↔
      ⟨module, qualifier⟩ ∈ whole := by
    have hlookup : index[(⟨module, qualifier⟩ : DeclarationKey)]? =
        whole[(⟨module, qualifier⟩ : DeclarationKey)]? :=
      getElem?_index_eq h hmodule
    simp only [mem_iff_exists, hlookup]
  simp only [qualified, hown, h.hasImport_eq module qualifier hmodule,
    h.importTarget?_eq module qualifier hmodule]

theorem module_ne_of_qualified {module qualifier : String}
    {target : DeclarationKey} (hmodule : module ≠ added)
    (hqualified : qualified whole total module qualifier = .ok (some target)) :
    target.module ≠ added := by
  rcases qualified_ok hqualified with ⟨_, hsome⟩ | ⟨_, _, himport⟩
  · cases hsome
    exact hmodule
  · exact h.target_ne module qualifier target hmodule himport.symm

theorem qualifiedOrigin_eq {module qualifier member : String}
    (hmodule : module ≠ added) :
    qualifiedOrigin index bindings module qualifier member =
      qualifiedOrigin whole total module qualifier member := by
  unfold qualifiedOrigin
  rw [qualified_eq h hmodule]
  cases hqualified : qualified whole total module qualifier with
  | error cause => rfl
  | ok found =>
    cases found with
    | none => rfl
    | some target =>
      dsimp only
      rw [getElem?_index_eq h (module_ne_of_qualified h hmodule hqualified)]

theorem Place.origin_eq {place : Place} (hplace : place.key.isOutside added = true) :
    place.origin index bindings = place.origin whole total := by
  have hkey : place.key.module ≠ added := DeclarationKey.isOutside_iff.mp hplace
  have horigin : Evaluation.origin index bindings place.key place.declaration
      place.previous place.member.initializer =
      Evaluation.origin whole total place.key place.declaration place.previous
        place.member.initializer := by
    cases place.member.initializer with
    | literal operator constant => rfl
    | implicit => rfl
    | unsupported form => rfl
    | reference qualifier member =>
      cases qualifier with
      | none => rfl
      | some qualifier => exact qualifiedOrigin_eq h hkey
  rw [Place.origin, Place.origin, horigin]

/-- The other members have the origins that they have without the
added module. -/
theorem origins_restrict {found : List (MemberKey × Origin)}
    (hfound : origins whole total whole.toList = .ok found) :
    origins index bindings index.toList =
      .ok (found.filter fun entry => entry.1.isOutside added) := by
  rw [origins_eq_mapM] at hfound ⊢
  rw [h.index_eq, toList_restrict, places_filter, ← h.index_eq]
  refine mapM_filter ?_ (fun place hplace => Place.origin_eq h hplace) hfound
  intro place entry hentry
  unfold Place.origin at hentry
  split at hentry
  · cases hentry
  · cases hentry
    rfl

/-- No other member waits for one of the added module. -/
theorem isOutside_of_waits {found : List (MemberKey × Origin)}
    (hfound : origins whole total whole.toList = .ok found) {key awaited : MemberKey}
    {rule : Rule} (hmem : (key, .waits awaited rule) ∈ found)
    (hkey : key.isOutside added = true) : awaited.isOutside added = true := by
  have hmodule : key.declaration.module ≠ added :=
    DeclarationKey.isOutside_iff.mp hkey
  obtain ⟨position, initializer, _, hfits⟩ := isOrigin_of_mem hfound hmem
  apply DeclarationKey.isOutside_iff.mpr
  cases hfits with
  | next _ => exact hmodule
  | reference htarget _ =>
    cases htarget with
    | same => exact hmodule
    | own _ => exact hmodule
    | imported _ himport => exact h.target_ne _ _ _ hmodule himport

end Origins

section Propagation

variable {found : List (MemberKey × Origin)} {added : String}

theorem seeds_restrict :
    seeds (found.filter fun entry => entry.1.isOutside added) =
      (seeds found).filter fun seed => seed.1.isOutside added := by
  apply filterMap_filter_of_kept
  rintro ⟨key, origin⟩ seed hseed
  cases origin with
  | value value =>
    cases hseed
    rfl
  | waits awaited rule => cases hseed
  | nowhere => cases hseed

theorem dependents_restrict {awaited : MemberKey} :
    (propagation (found.filter fun entry =>
        entry.1.isOutside added)).dependents awaited =
      ((propagation found).dependents awaited).filter
        (MemberKey.isOutside added) := by
  rw [dependents_eq, dependents_eq]
  apply valuesFor_filter
  rintro ⟨key, origin⟩ target waits hedge
  cases origin with
  | waits awaited rule =>
    cases hedge
    rfl
  | value value => cases hedge
  | nowhere => cases hedge

theorem getElem?_rules_eq {key : MemberKey}
    (hkey : key.isOutside added = true) :
    (rules (found.filter fun entry => entry.1.isOutside added))[key]? =
      (rules found)[key]? := by
  have hrules : (found.filter fun entry => entry.1.isOutside added).filterMap rule? =
      (found.filterMap rule?).filter fun entry => entry.1.isOutside added := by
    apply filterMap_filter_of_kept
    rintro ⟨waits, origin⟩ stated hstated
    cases origin with
    | waits awaited rule =>
      cases hstated
      rfl
    | value value => cases hstated
    | nowhere => cases hstated
  apply Option.ext
  intro rule
  rw [getElem?_rules, getElem?_rules, hrules, lastFor_filter hkey]

end Propagation

theorem propagation_isPart {index whole : Index} {bindings total : BindingGraph}
    {added : String} (h : AgreeOutside index whole bindings total added)
    {found : List (MemberKey × Origin)}
    (hfound : origins whole total whole.toList = .ok found) :
    (propagation (found.filter fun entry => entry.1.isOutside added)).IsPart
      (propagation found) (MemberKey.isOutside added) where
  dependents _ _ := dependents_restrict
  outside awaited hawaited := by
    rw [List.filter_eq_nil_iff]
    intro key hkey hkept
    obtain ⟨rule, hmem⟩ := mem_dependents.mp hkey
    rw [isOutside_of_waits h hfound hmem hkept] at hawaited
    cases hawaited
  derive key hkey := by
    funext value
    change derive (rules _) key value = derive (rules found) key value
    rw [derive, derive, getElem?_rules_eq hkey]

end Evaluation

variable {index whole : Index} {bindings total : BindingGraph} {added : String}

/-- The other members have the values that they have without the
added module. -/
theorem evaluate_restrict (h : AgreeOutside index whole bindings total added)
    {values : Values} (hvalues : evaluate whole total = .ok values) :
    evaluate index bindings =
      .ok (restrict (MemberKey.isOutside added) values) := by
  unfold evaluate at hvalues ⊢
  split at hvalues
  case h_1 => cases hvalues
  case h_2 found hfound =>
    rw [Evaluation.origins_restrict h hfound]
    dsimp only
    have hnodes : (Evaluation.propagation
        (found.filter fun entry => entry.1.isOutside added)).Encloses
        (Evaluation.seeds (found.filter fun entry => entry.1.isOutside added))
        ((found.filter fun entry => entry.1.isOutside added).map Prod.fst) :=
      Evaluation.found_enclose
    rw [Evaluation.seeds_restrict] at hnodes ⊢
    apply Propagation.propagate_of_part (Evaluation.propagation_isPart h hfound)
      Evaluation.found_enclose hnodes _ _ hvalues
    · simp
    · simp

end Enum

end EnumInline
