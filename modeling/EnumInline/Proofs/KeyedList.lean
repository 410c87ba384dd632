import Std.Data.ExtTreeMap
import Std.Data.ExtTreeSet

/-!
Lists of entries in which a key may occur several times. A map that is filled
from such a list keeps the last entry of each key; a map of lists that is
filled from it keeps them all.
-/

namespace EnumInline.KeyedList

variable {κ β ι : Type}

/-- The first entry for `key` has `value`. -/
def FirstFor (entries : List (κ × β)) (key : κ) (value : β) : Prop :=
  ∃ earlier later, entries = earlier ++ (key, value) :: later ∧
    ∀ entry ∈ earlier, entry.1 ≠ key

/-- The last entry for `key` has `value`. -/
def LastFor (entries : List (κ × β)) (key : κ) (value : β) : Prop :=
  ∃ earlier later, entries = earlier ++ (key, value) :: later ∧
    ∀ entry ∈ later, entry.1 ≠ key

theorem not_firstFor_nil {key : κ} {value : β} : ¬ FirstFor [] key value := by
  rintro ⟨earlier, later, h, _⟩
  simp at h

theorem not_lastFor_nil {key : κ} {value : β} : ¬ LastFor [] key value := by
  rintro ⟨earlier, later, h, _⟩
  simp at h

theorem LastFor.mem {entries : List (κ × β)} {key : κ} {value : β}
    (h : LastFor entries key value) : (key, value) ∈ entries := by
  obtain ⟨earlier, later, rfl, _⟩ := h
  simp

theorem FirstFor.mem {entries : List (κ × β)} {key : κ} {value : β}
    (h : FirstFor entries key value) : (key, value) ∈ entries := by
  obtain ⟨earlier, later, rfl, _⟩ := h
  simp

theorem firstFor_cons {entry : κ × β} {rest : List (κ × β)} {key : κ}
    {value : β} :
    FirstFor (entry :: rest) key value ↔
      entry = (key, value) ∨ (entry.1 ≠ key ∧ FirstFor rest key value) := by
  constructor
  · rintro ⟨earlier, later, h, hearlier⟩
    cases earlier with
    | nil =>
      exact Or.inl (List.cons.inj h).1
    | cons first earlier =>
      obtain ⟨rfl, rfl⟩ := List.cons.inj h
      exact Or.inr ⟨hearlier entry (by simp), earlier, later, rfl,
        fun other hother => hearlier other (by simp [hother])⟩
  · rintro (rfl | ⟨hne, earlier, later, rfl, hearlier⟩)
    · exact ⟨[], rest, rfl, by simp⟩
    · refine ⟨entry :: earlier, later, rfl, ?_⟩
      intro other hother
      rcases List.mem_cons.mp hother with rfl | hother
      · exact hne
      · exact hearlier other hother

theorem exists_firstFor {entries : List (κ × β)} {key : κ} {value : β}
    (h : (key, value) ∈ entries) : ∃ first, FirstFor entries key first := by
  induction entries with
  | nil => simp at h
  | cons entry rest ih =>
    obtain ⟨entryKey, first⟩ := entry
    simp only [firstFor_cons]
    by_cases hkey : entryKey = key
    · exact ⟨first, Or.inl (by rw [hkey])⟩
    · rcases List.mem_cons.mp h with heq | hrest
      · cases heq
        exact absurd rfl hkey
      · obtain ⟨later, hlater⟩ := ih hrest
        exact ⟨later, Or.inr ⟨hkey, hlater⟩⟩

theorem lastFor_cons {entry : κ × β} {rest : List (κ × β)} {key : κ}
    {value : β} :
    LastFor (entry :: rest) key value ↔
      LastFor rest key value ∨
        (entry = (key, value) ∧ ∀ other ∈ rest, other.1 ≠ key) := by
  constructor
  · rintro ⟨earlier, later, h, hlater⟩
    cases earlier with
    | nil =>
      obtain ⟨rfl, rfl⟩ := List.cons.inj h
      exact Or.inr ⟨rfl, hlater⟩
    | cons first earlier =>
      obtain ⟨rfl, rfl⟩ := List.cons.inj h
      exact Or.inl ⟨earlier, later, rfl, hlater⟩
  · rintro (⟨earlier, later, rfl, hlater⟩ | ⟨rfl, hrest⟩)
    · exact ⟨entry :: earlier, later, rfl, hlater⟩
    · exact ⟨[], rest, rfl, hrest⟩

theorem exists_lastFor {entries : List (κ × β)} {key : κ} {value : β}
    (h : (key, value) ∈ entries) : ∃ last, LastFor entries key last := by
  induction entries generalizing value with
  | nil => simp at h
  | cons entry rest ih =>
    simp only [lastFor_cons]
    by_cases hlater : ∃ other, (key, other) ∈ rest
    · obtain ⟨other, hother⟩ := hlater
      obtain ⟨last, hlast⟩ := ih hother
      exact ⟨last, Or.inl hlast⟩
    · rcases List.mem_cons.mp h with heq | hrest
      · refine ⟨value, Or.inr ⟨heq.symm, ?_⟩⟩
        rintro ⟨otherKey, other⟩ hother rfl
        exact hlater ⟨other, hother⟩
      · exact absurd ⟨value, hrest⟩ hlater

/-- Where no key has two values, the last entry for a key is any. -/
theorem lastFor_iff_mem {entries : List (κ × β)}
    (hunique : ∀ key value other, (key, value) ∈ entries →
      (key, other) ∈ entries → value = other) {key : κ} {value : β} :
    LastFor entries key value ↔ (key, value) ∈ entries := by
  constructor
  · exact LastFor.mem
  · intro hmem
    obtain ⟨last, hlast⟩ := exists_lastFor hmem
    rwa [hunique key value last hmem hlast.mem]

theorem lastFor_append {first second : List (κ × β)} {key : κ} {value : β} :
    LastFor (first ++ second) key value ↔
      LastFor second key value ∨
        (LastFor first key value ∧ ∀ entry ∈ second, entry.1 ≠ key) := by
  induction first with
  | nil =>
    simp [not_lastFor_nil]
  | cons entry rest ih =>
    simp only [List.cons_append, lastFor_cons, ih, List.mem_append]
    constructor
    · rintro ((h | ⟨h, hsecond⟩) | ⟨h, hall⟩)
      · exact Or.inl h
      · exact Or.inr ⟨Or.inl h, hsecond⟩
      · exact Or.inr ⟨Or.inr ⟨h, fun other hother => hall other (Or.inl hother)⟩,
          fun other hother => hall other (Or.inr hother)⟩
    · rintro (h | ⟨h | ⟨h, hrest⟩, hsecond⟩)
      · exact Or.inl (Or.inl h)
      · exact Or.inl (Or.inr ⟨h, hsecond⟩)
      · refine Or.inr ⟨h, fun other hother => ?_⟩
        rcases hother with hother | hother
        · exact hrest other hother
        · exact hsecond other hother

/-- The last entry for a key is made by the last item that makes one for it. -/
theorem lastFor_filterMap {entry : ι → Option (κ × β)} {items : List ι} {key : κ}
    {value : β} :
    LastFor (items.filterMap entry) key value ↔
      ∃ earlier item later, items = earlier ++ item :: later ∧
        entry item = some (key, value) ∧
        ∀ other ∈ later, ∀ stated, entry other ≠ some (key, stated) := by
  constructor
  · rintro ⟨earlierEntries, laterEntries, h, hlater⟩
    obtain ⟨front, back, rfl, -, hback⟩ := List.filterMap_eq_append_iff.mp h
    obtain ⟨skipped, item, later, rfl, -, hitem, rfl⟩ :=
      List.filterMap_eq_cons_iff.mp hback
    refine ⟨front ++ skipped, item, later, by simp, hitem, ?_⟩
    intro other hother stated hentry
    exact hlater _ (List.mem_filterMap.mpr ⟨other, hother, hentry⟩) rfl
  · rintro ⟨earlier, item, later, rfl, hitem, hlater⟩
    refine ⟨earlier.filterMap entry, later.filterMap entry, by simp [hitem], ?_⟩
    rintro ⟨_, stated⟩ hstated rfl
    obtain ⟨other, hother, hentry⟩ := List.mem_filterMap.mp hstated
    exact hlater other hother stated hentry

/-- No key occurs in the entries of two items. -/
def KeysApart (entries : ι → List (κ × β)) (items : List ι) : Prop :=
  items.Pairwise fun first second =>
    ∀ entry ∈ entries first, ∀ other ∈ entries second, entry.1 ≠ other.1

theorem KeysApart.perm {entries : ι → List (κ × β)} {items permuted : List ι}
    (h : KeysApart entries items) (hperm : items.Perm permuted) :
    KeysApart entries permuted := by
  refine (hperm.pairwise_iff ?_).mp h
  intro first second hapart entry hentry other hother heq
  exact hapart other hother entry hentry heq.symm

/-- Where no two items have entries for one key, the last entry for a key is
that of its item. -/
theorem lastFor_flatMap {entries : ι → List (κ × β)} {items : List ι}
    (h : KeysApart entries items) {key : κ} {value : β} :
    LastFor (items.flatMap entries) key value ↔
      ∃ item ∈ items, LastFor (entries item) key value := by
  induction items with
  | nil => simp [not_lastFor_nil]
  | cons item rest ih =>
    obtain ⟨hitem, hrest⟩ := List.pairwise_cons.mp h
    rw [List.flatMap_cons, lastFor_append, ih hrest]
    constructor
    · rintro (⟨other, hother, hlast⟩ | ⟨hlast, _⟩)
      · exact ⟨other, by simp [hother], hlast⟩
      · exact ⟨item, by simp, hlast⟩
    · rintro ⟨other, hother, hlast⟩
      rcases List.mem_cons.mp hother with rfl | hother
      · refine Or.inr ⟨hlast, fun entry hentry => ?_⟩
        obtain ⟨owner, howner, hentry⟩ := List.mem_flatMap.mp hentry
        exact (hitem owner howner _ hlast.mem entry hentry).symm
      · exact Or.inl ⟨other, hother, hlast⟩

theorem lastFor_flatMap_of_later {entries : ι → List (κ × β)}
    {earlier later : List ι} {item : ι} {key : κ} {value : β}
    (hmem : (key, value) ∈ entries item)
    (honly : ∀ other, (key, other) ∈ entries item → other = value)
    (hlater : ∀ other ∈ later, ∀ entry ∈ entries other, entry.1 ≠ key) :
    LastFor ((earlier ++ item :: later).flatMap entries) key value := by
  obtain ⟨last, hlast⟩ := exists_lastFor hmem
  obtain rfl := honly last hlast.mem
  rw [List.flatMap_append, List.flatMap_cons, lastFor_append, lastFor_append]
  refine Or.inl (Or.inr ⟨hlast, ?_⟩)
  intro entry hentry
  obtain ⟨other, hother, hentry⟩ := List.mem_flatMap.mp hentry
  exact hlater other hother entry hentry

/-- An item without an entry for a key does not change the last entry for it. -/
theorem lastFor_flatMap_of_added {entries : ι → List (κ × β)}
    {earlier later : List ι} {item : ι} {key : κ} {value : β}
    (hitem : ∀ entry ∈ entries item, entry.1 ≠ key) :
    LastFor ((earlier ++ item :: later).flatMap entries) key value ↔
      LastFor ((earlier ++ later).flatMap entries) key value := by
  have hnone : ¬ LastFor (entries item) key value := fun hlast =>
    hitem _ hlast.mem rfl
  have hskip : (∀ entry ∈ entries item ++ later.flatMap entries, entry.1 ≠ key) ↔
      ∀ entry ∈ later.flatMap entries, entry.1 ≠ key := by
    constructor
    · intro hall entry hentry
      exact hall entry (List.mem_append_right _ hentry)
    · intro hlater entry hentry
      rcases List.mem_append.mp hentry with hentry | hentry
      · exact hitem entry hentry
      · exact hlater entry hentry
  rw [List.flatMap_append, List.flatMap_append, List.flatMap_cons, lastFor_append,
    lastFor_append, lastFor_append, hskip]
  simp [hnone]

theorem lastFor_filter {entries : List (κ × β)} {keep : κ → Bool} {key : κ}
    {value : β} (hkeep : keep key = true) :
    LastFor (entries.filter fun entry => keep entry.1) key value ↔
      LastFor entries key value := by
  induction entries with
  | nil => simp
  | cons entry rest ih =>
    have hrest : (∀ other ∈ rest.filter fun entry => keep entry.1,
        other.1 ≠ key) ↔ ∀ other ∈ rest, other.1 ≠ key := by
      constructor
      · rintro hnone other hother rfl
        exact hnone other (List.mem_filter.mpr ⟨hother, hkeep⟩) rfl
      · intro hnone other hother
        exact hnone other (List.mem_filter.mp hother).1
    cases hentry : keep entry.1 with
    | true =>
      simp only [List.filter_cons, hentry, if_true, lastFor_cons, ih, hrest]
    | false =>
      have hne : entry ≠ (key, value) := by
        rintro rfl
        cases hkeep.symm.trans hentry
      simp [hentry, lastFor_cons, ih, hne]

/-- What is kept among the entries that items have is what the items have whose
entries are kept. -/
theorem filterMap_filter_of_kept {ν : Type} {entry : ι → Option ν}
    {keep : ν → Bool} {keepItem : ι → Bool}
    (hkeep : ∀ item node, entry item = some node → keepItem item = keep node)
    {items : List ι} :
    (items.filter keepItem).filterMap entry =
      (items.filterMap entry).filter keep := by
  rw [List.filterMap_filter, List.filter_filterMap]
  congr 1
  funext item
  cases hentry : entry item with
  | none => simp
  | some node => simp [hkeep item node hentry, Option.filter]

section Values

variable [Ord κ]

/-- The values of the entries for a key, in their order. -/
def valuesFor (entries : List (κ × β)) (key : κ) : List β :=
  entries.filterMap fun (other, value) =>
    if compare other key = .eq then some value else none

theorem mem_valuesFor [Std.LawfulEqOrd κ] {entries : List (κ × β)} {key : κ} {value : β} :
    value ∈ valuesFor entries key ↔ (key, value) ∈ entries := by
  simp only [valuesFor, List.mem_filterMap, Std.compare_eq_iff_eq, Prod.exists,
    Option.ite_none_right_eq_some, Option.some.injEq]
  constructor
  · rintro ⟨_, _, hmem, rfl, rfl⟩
    exact hmem
  · intro hmem
    exact ⟨key, value, hmem, rfl, rfl⟩

/-- The values that are kept are those of the items that are. -/
theorem valuesFor_filter {entry : ι → Option (κ × β)} {keep : β → Bool}
    {keepItem : ι → Bool} (hkeep : ∀ item key value,
      entry item = some (key, value) → keepItem item = keep value)
    {items : List ι} {key : κ} :
    valuesFor ((items.filter keepItem).filterMap entry) key =
      (valuesFor (items.filterMap entry) key).filter keep := by
  have hitems : (items.filter keepItem).filterMap entry =
      (items.filterMap entry).filter fun found => keep found.2 :=
    filterMap_filter_of_kept fun item found h => hkeep item found.1 found.2 h
  rw [hitems, valuesFor, valuesFor]
  apply filterMap_filter_of_kept
  rintro ⟨other, value⟩ found hfound
  dsimp only at hfound
  split at hfound
  · cases hfound
    rfl
  · cases hfound

end Values

section Maps

variable [Ord κ] [Std.TransOrd κ]

theorem mem_iff_exists {map : Std.ExtTreeMap κ β} {key : κ} :
    key ∈ map ↔ ∃ value, map[key]? = some value := by
  rw [Std.ExtTreeMap.mem_iff_isSome_getElem?, Option.isSome_iff_exists]

/-- The part of a map whose keys are kept. -/
def restrict (keep : κ → Bool) (map : Std.ExtTreeMap κ β) : Std.ExtTreeMap κ β :=
  map.filter fun key _ => keep key

theorem toList_restrict {keep : κ → Bool} {map : Std.ExtTreeMap κ β} :
    (restrict keep map).toList = map.toList.filter fun entry => keep entry.1 :=
  Std.ExtTreeMap.toList_filter

variable [Std.LawfulEqOrd κ]

theorem getElem?_restrict {keep : κ → Bool} {map : Std.ExtTreeMap κ β} {key : κ} :
    (restrict keep map)[key]? = if keep key then map[key]? else none := by
  rw [restrict, Std.ExtTreeMap.getElem?_filter']
  cases keep key <;> cases map[key]? <;> rfl

theorem getElem?_restrict_of_keep {keep : κ → Bool} {map : Std.ExtTreeMap κ β}
    {key : κ} (h : keep key = true) : (restrict keep map)[key]? = map[key]? := by
  rw [getElem?_restrict, if_pos h]

theorem mem_restrict {keep : κ → Bool} {map : Std.ExtTreeMap κ β} {key : κ} :
    key ∈ restrict keep map ↔ keep key = true ∧ key ∈ map := by
  simp only [mem_iff_exists, getElem?_restrict]
  cases keep key <;> simp

theorem restrict_insert {keep : κ → Bool} {map : Std.ExtTreeMap κ β} {key : κ}
    {value : β} :
    restrict keep (map.insert key value) =
      if keep key then (restrict keep map).insert key value
      else restrict keep map := by
  apply Std.ExtTreeMap.ext_getElem?
  intro other
  by_cases hsame : key = other
  · subst hsame
    cases hkeep : keep key <;> simp [getElem?_restrict, hkeep]
  · cases hkeep : keep key <;>
      simp [getElem?_restrict, Std.ExtTreeMap.getElem?_insert, hsame]

/-- A map that is filled entry by entry keeps the last entry of each key. Items
without an entry are passed over. -/
theorem getElem?_foldl {step : Std.ExtTreeMap κ β → ι → Std.ExtTreeMap κ β}
    (entry : ι → Option (κ × β))
    (hskip : ∀ map item, entry item = none → step map item = map)
    (hstep : ∀ map item key value,
        entry item = some (key, value) → step map item = map.insert key value)
    {items : List ι} {map : Std.ExtTreeMap κ β} {key : κ} {value : β} :
    (items.foldl step map)[key]? = some value ↔
      LastFor (items.filterMap entry) key value ∨
        (map[key]? = some value ∧ ∀ found ∈ items.filterMap entry,
          found.1 ≠ key) := by
  induction items generalizing map with
  | nil => simp [not_lastFor_nil]
  | cons item rest ih =>
    rw [List.foldl_cons, ih]
    cases hentry : entry item with
    | none => simp only [hskip map item hentry, List.filterMap_cons_none hentry]
    | some found =>
      obtain ⟨foundKey, foundValue⟩ := found
      rw [hstep map item foundKey foundValue hentry,
        List.filterMap_cons_some hentry, lastFor_cons,
        Std.ExtTreeMap.getElem?_insert]
      by_cases hkey : foundKey = key
      · subst hkey
        simp
      · simp [hkey]

/-- A map that is made of a list of entries has the last entry of each key. -/
theorem getElem?_foldl_insert {entries : List (κ × β)} {key : κ} {value : β} :
    (entries.foldl (fun map (key, value) => map.insert key value)
      (∅ : Std.ExtTreeMap κ β))[key]? = some value ↔ LastFor entries key value := by
  rw [getElem?_foldl some]
  · simp
  · intro map item hnone
    cases hnone
  · intro map item key value hsome
    cases hsome
    rfl

/-- A map that is filled by items whose keys are apart does not depend on
their order. -/
theorem foldl_insert_perm {entries : ι → List (κ × β)} {items permuted : List ι}
    (hperm : items.Perm permuted) (hapart : KeysApart entries items) :
    (items.flatMap entries).foldl (fun map (key, value) => map.insert key value)
      (∅ : Std.ExtTreeMap κ β) =
      (permuted.flatMap entries).foldl
        (fun map (key, value) => map.insert key value) ∅ := by
  apply Std.ExtTreeMap.ext_getElem?
  intro key
  apply Option.ext
  intro value
  rw [getElem?_foldl_insert, getElem?_foldl_insert, lastFor_flatMap hapart,
    lastFor_flatMap (hapart.perm hperm)]
  simp only [hperm.mem_iff]

/-- A map that is filled by items of which one has no kept keys and the others
have no other keys: without that item, it is the part of the map that
is kept. -/
theorem foldl_insert_restrict {entries : ι → List (κ × β)} {keep : κ → Bool}
    {earlier later : List ι} {item : ι}
    (hitem : ∀ entry ∈ entries item, keep entry.1 = false)
    (hothers : ∀ other ∈ earlier ++ later, ∀ entry ∈ entries other,
      keep entry.1 = true) :
    ((earlier ++ later).flatMap entries).foldl
        (fun map (key, value) => map.insert key value)
        (∅ : Std.ExtTreeMap κ β) =
      restrict keep (((earlier ++ item :: later).flatMap entries).foldl
        (fun map (key, value) => map.insert key value) ∅) := by
  apply Std.ExtTreeMap.ext_getElem?
  intro key
  apply Option.ext
  intro value
  rw [getElem?_foldl_insert, getElem?_restrict]
  cases hkeep : keep key with
  | true =>
    rw [if_pos rfl, getElem?_foldl_insert, lastFor_flatMap_of_added]
    rintro entry hentry rfl
    cases (hitem entry hentry).symm.trans hkeep
  | false =>
    simp only [Bool.false_eq_true, if_false, reduceCtorEq, iff_false]
    intro hlast
    obtain ⟨other, hother, hentry⟩ := List.mem_flatMap.mp hlast.mem
    cases (hothers other hother _ hentry).symm.trans hkeep

/-- A map of lists that is filled entry by entry keeps all entries of each key.
Items without an entry are passed over. -/
theorem getD_foldl
    {step : Std.ExtTreeMap κ (List β) → ι → Std.ExtTreeMap κ (List β)}
    (entry : ι → Option (κ × β))
    (hskip : ∀ map item, entry item = none → step map item = map)
    (hstep : ∀ map item key value,
        entry item = some (key, value) →
          step map item = map.insert key (map.getD key [] ++ [value]))
    {items : List ι} {map : Std.ExtTreeMap κ (List β)} {key : κ} :
    (items.foldl step map).getD key [] =
      map.getD key [] ++ valuesFor (items.filterMap entry) key := by
  induction items generalizing map with
  | nil => simp [valuesFor]
  | cons item rest ih =>
    rw [List.foldl_cons, ih]
    cases hentry : entry item with
    | none => rw [hskip map item hentry, List.filterMap_cons_none hentry]
    | some found =>
      obtain ⟨other, value⟩ := found
      rw [hstep map item other value hentry, List.filterMap_cons_some hentry,
        Std.ExtTreeMap.getD_insert]
      by_cases hkey : other = key
      · subst hkey
        simp [valuesFor]
      · simp [valuesFor, hkey]

end Maps

end EnumInline.KeyedList
