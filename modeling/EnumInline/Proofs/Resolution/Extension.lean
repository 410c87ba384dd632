import EnumInline.Resolution.Resolver

/-!
What one more known module changes. A specifier that does not lead to the added
module leads to where it would without it: every choice that the resolver makes
for the sake of a known module is made for another one.
-/

namespace EnumInline.Resolver

/-- A resolver to which one more module is known. -/
structure Extends (small large : Resolver) (added : String) : Prop where
  aliases : large.aliases = small.aliases
  baseUrl : large.baseUrl = small.baseUrl
  known : ∀ id, large.isKnown id = (small.isKnown id || id == added)

namespace Extends

variable {small large : Resolver} {added : String} (h : small.Extends large added)

include h

theorem isKnown_added : large.isKnown added = true := by
  simp [h.known]

theorem isKnown_of_ne {id : String} (hne : id ≠ added) :
    large.isKnown id = small.isKnown id := by
  simp [h.known, hne]

theorem ne_of_not_isKnown {id : String} (hid : large.isKnown id = false) :
    id ≠ added := by
  rintro rfl
  rw [h.isKnown_added] at hid
  cases hid

theorem moduleAt_eq {path : String} (hne : large.moduleAt path ≠ added) :
    small.moduleAt path = large.moduleAt path := by
  unfold moduleAt at hne ⊢
  dsimp only at hne ⊢
  generalize ModuleId.stripSpecifierExtension (Path.normalize path) = id at hne ⊢
  cases hid : large.isKnown id with
  | true =>
    replace hne : id ≠ added := by simpa [hid] using hne
    have hsmall : small.isKnown id = true := by rw [← h.isKnown_of_ne hne, hid]
    simp [hsmall]
  | false =>
    have hsmall : small.isKnown id = false := by
      rw [← h.isKnown_of_ne (h.ne_of_not_isKnown hid), hid]
    cases hindex : large.isKnown (Path.below id "index") with
    | true =>
      replace hne : Path.below id "index" ≠ added := by
        simpa [hid, hindex] using hne
      have hother : small.isKnown (Path.below id "index") = true := by
        rw [← h.isKnown_of_ne hne, hindex]
      simp [hsmall, hother]
    | false =>
      have hother : small.isKnown (Path.below id "index") = false := by
        rw [← h.isKnown_of_ne (h.ne_of_not_isKnown hindex), hindex]
      simp [hsmall, hother]

/-- The first known module among several places is the same, unless it is
the added one. -/
theorem find?_eq {places : List String} {found : String}
    (hfound : (places.map large.moduleAt).find? large.isKnown = some found)
    (hne : found ≠ added) :
    (places.map small.moduleAt).find? small.isKnown = some found := by
  induction places with
  | nil => cases hfound
  | cons place rest ih =>
    rw [List.map_cons, List.find?_cons] at hfound ⊢
    cases hplace : large.isKnown (large.moduleAt place) with
    | true =>
      rw [hplace] at hfound
      cases hfound
      simp only [h.moduleAt_eq hne, ← h.isKnown_of_ne hne, hplace]
    | false =>
      rw [hplace] at hfound
      have hother := h.ne_of_not_isKnown hplace
      simp only [h.moduleAt_eq hother, ← h.isKnown_of_ne hother, hplace]
      exact ih hfound

theorem map_moduleAt_eq {places : List String}
    (hnone : (places.map large.moduleAt).find? large.isKnown = none) :
    places.map small.moduleAt = places.map large.moduleAt ∧
      (places.map small.moduleAt).find? small.isKnown = none := by
  have hne (place : String) (hplace : place ∈ places) :
      large.moduleAt place ≠ added := by
    have hknown := List.find?_eq_none.mp hnone _ (List.mem_map_of_mem hplace)
    exact h.ne_of_not_isKnown (by simpa using hknown)
  have hmap : places.map small.moduleAt = places.map large.moduleAt :=
    List.map_congr_left fun place hplace => h.moduleAt_eq (hne place hplace)
  refine ⟨hmap, ?_⟩
  rw [hmap, List.find?_eq_none]
  intro id hid
  obtain ⟨place, hplace, rfl⟩ := List.mem_map.mp hid
  rw [← h.isKnown_of_ne (hne place hplace)]
  exact List.find?_eq_none.mp hnone _ hid

theorem resolveAlias?_eq {specifier : String}
    (hne : large.resolveAlias? specifier ≠ some added) :
    small.resolveAlias? specifier = large.resolveAlias? specifier := by
  unfold resolveAlias? candidates at hne ⊢
  rw [h.aliases] at hne ⊢
  split at hne
  case h_1 => rfl
  case h_2 places _ =>
    dsimp only at hne ⊢
    cases hfound : (places.map large.moduleAt).find? large.isKnown with
    | some found =>
      rw [hfound] at hne
      rw [h.find?_eq hfound (by simpa using hne)]
      rfl
    | none =>
      obtain ⟨hmap, hnone⟩ := h.map_moduleAt_eq hfound
      rw [hnone, hmap]

theorem resolveBase?_eq {specifier : String}
    (hne : large.resolveBase? specifier ≠ some added) :
    small.resolveBase? specifier = large.resolveBase? specifier := by
  unfold resolveBase? at hne ⊢
  rw [h.baseUrl] at hne ⊢
  cases hbase : small.baseUrl with
  | none => rfl
  | some base =>
    rw [hbase] at hne
    have hplace : large.moduleAt (Path.below base specifier) ≠ added := by
      intro hsame
      simp [Option.filter, hsame, h.isKnown_added] at hne
    simp only [Option.map_some, Option.filter_some, h.moduleAt_eq hplace,
      h.isKnown_of_ne hplace]

/-- A specifier that does not mean the added module means the same
without it. -/
theorem resolve_eq {specifier importer : String}
    (hne : large.resolve specifier importer ≠ added) :
    small.resolve specifier importer = large.resolve specifier importer := by
  unfold resolve at hne ⊢
  split
  case isTrue hrelative =>
    rw [if_pos hrelative] at hne
    exact h.moduleAt_eq hne
  case isFalse hrelative =>
    rw [if_neg hrelative] at hne
    split
    case isTrue habsolute =>
      rw [if_pos habsolute] at hne
      exact h.moduleAt_eq hne
    case isFalse habsolute =>
      rw [if_neg habsolute] at hne
      cases halias : large.resolveAlias? specifier with
      | some found =>
        rw [halias] at hne
        rw [h.resolveAlias?_eq (by simpa [halias] using hne), halias]
        rfl
      | none =>
        rw [halias, Option.none_or] at hne
        have hbase : large.resolveBase? specifier ≠ some added := by
          intro hsame
          simp [hsame] at hne
        rw [h.resolveAlias?_eq (by simp [halias]), halias, h.resolveBase?_eq hbase]

end Extends

end EnumInline.Resolver
