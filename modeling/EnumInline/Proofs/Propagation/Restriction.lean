import EnumInline.Proofs.Propagation

/-!
Propagation in a part of a graph. Where no node of the part waits for a node
outside it, the nodes of the part get the same values in the whole graph as in
the part alone: with the other nodes left out of its queue, a propagation of the
whole graph makes the visits of one of the part, in the same order.
-/

namespace EnumInline.Propagation

open KeyedList

variable {ν α ε : Type} [Ord ν] [Std.TransOrd ν]

/-- A graph is the part of another whose nodes are kept, and no kept node waits
for one that is not. -/
structure IsPart (part graph : Propagation ν α ε) (keep : ν → Bool) : Prop where
  dependents : ∀ node, keep node = true →
    part.dependents node = (graph.dependents node).filter keep
  outside : ∀ node, keep node = false →
    (graph.dependents node).filter keep = []
  derive : ∀ node, keep node = true → part.derive node = graph.derive node

/-- One progress is the part of another whose nodes are kept. -/
structure Progress.IsPart (part progress : Progress ν α) (keep : ν → Bool) :
    Prop where
  values : part.values = restrict keep progress.values
  queue : part.queue = progress.queue.filter keep

variable {part graph : Propagation ν α ε} {keep : ν → Bool}

/-- A visit that cannot fail is followed by the next one. -/
theorem Drains.visited {node : ν} {rest : List ν} {values : Std.ExtTreeMap ν α}
    {result : Except ε (Std.ExtTreeMap ν α)} {value : α}
    (h : graph.Drains (node :: rest) values result)
    (hvalue : values[node]? = some value) {P : Progress ν α → Prop}
    (hserves : ∀ progress : Progress ν α, progress.queue = rest →
      progress.values = values →
      ∃ served, graph.serve value (graph.dependents node) progress = .ok served ∧
        P served) :
    ∃ served, P served ∧ graph.Drains served.queue served.values result := by
  cases h with
  | absent hnone => cases hnone.symm.trans hvalue
  | visit hsame hvisit hqueue hvalues hrest =>
    cases hvalue.symm.trans hsame
    obtain ⟨served, hserve, hserved⟩ := hserves _ hqueue hvalues
    cases hvisit.symm.trans hserve
    exact ⟨_, hserved, hrest⟩
  | fails hsame hvisit hqueue hvalues =>
    cases hvalue.symm.trans hsame
    obtain ⟨served, hserve, _⟩ := hserves _ hqueue hvalues
    cases hvisit.symm.trans hserve

variable [Std.LawfulEqOrd ν]

theorem Progress.IsPart.settle {small progress : Progress ν α}
    (h : small.IsPart progress keep) {node : ν} {value : α} :
    (keep node = true →
      (small.settle node value).IsPart (progress.settle node value) keep) ∧
    (keep node = false → small.IsPart (progress.settle node value) keep) := by
  constructor
  · intro hkeep
    constructor
    · simp [restrict_insert, hkeep, h.values]
    · simp [hkeep, h.queue]
  · intro hkeep
    constructor
    · simp [restrict_insert, hkeep, h.values]
    · simp [hkeep, h.queue]

/-- Handing a value to nodes hands it to those of the part. -/
theorem serve_isPart (hpart : part.IsPart graph keep) {value : α} {nodes : List ν}
    {progress served small : Progress ν α} (h : small.IsPart progress keep)
    (hserve : graph.serve value nodes progress = .ok served) :
    ∃ result, part.serve value (nodes.filter keep) small = .ok result ∧
      result.IsPart served keep := by
  induction nodes generalizing progress small with
  | nil =>
    cases hserve
    exact ⟨small, rfl, h⟩
  | cons node rest ih =>
    cases hkeep : keep node with
    | false =>
      rw [List.filter_cons_of_neg (by simp [hkeep])]
      unfold serve at hserve
      split at hserve
      case isTrue => exact ih h hserve
      case isFalse =>
        split at hserve
        case h_1 => cases hserve
        case h_2 => exact ih h hserve
        case h_3 => exact ih (h.settle.2 hkeep) hserve
    | true =>
      have hmem : node ∈ small.values ↔ node ∈ progress.values := by
        rw [h.values, mem_restrict, and_iff_right hkeep]
      rw [List.filter_cons_of_pos hkeep]
      unfold serve at hserve ⊢
      simp only [hmem, hpart.derive node hkeep]
      split at hserve
      case isTrue hold =>
        rw [if_pos hold]
        exact ih h hserve
      case isFalse hfresh =>
        rw [if_neg hfresh]
        split at hserve
        case h_1 => cases hserve
        case h_2 => exact ih h hserve
        case h_3 => exact ih (h.settle.1 hkeep) hserve

/-- Where the whole graph drains without a failure, its part drains to the same
values. -/
theorem Drains.of_part (hpart : part.IsPart graph keep) {queue : List ν}
    {values final : Std.ExtTreeMap ν α} {result : Except ε (Std.ExtTreeMap ν α)}
    (h : graph.Drains queue values (.ok final))
    (hother : part.Drains (queue.filter keep) (restrict keep values) result) :
    result = .ok (restrict keep final) := by
  generalize hfinal : Except.ok final = whole at h
  induction h with
  | done =>
    cases hfinal
    cases hother
    rfl
  | @absent node rest values _ hnone _ ih =>
    apply ih _ hfinal
    cases hkeep : keep node with
    | false => rwa [List.filter_cons_of_neg (by simp [hkeep])] at hother
    | true =>
      rw [List.filter_cons_of_pos hkeep] at hother
      rw [← getElem?_restrict_of_keep hkeep] at hnone
      cases hother with
      | absent _ hrest => exact hrest
      | visit hvalue => cases hnone.symm.trans hvalue
      | fails hvalue => cases hnone.symm.trans hvalue
  | @visit node rest values value progress served _ hvalue hserve hqueue hvalues _
      ih =>
    apply ih _ hfinal
    subst hqueue hvalues
    cases hkeep : keep node with
    | false =>
      -- the part makes no visit, and this one changes nothing that is kept
      rw [List.filter_cons_of_neg (by simp [hkeep])] at hother
      have hsmall : (⟨restrict keep progress.values, progress.queue.filter keep,
          []⟩ : Progress ν α).IsPart progress keep :=
        ⟨rfl, List.append_nil _⟩
      obtain ⟨result, hresult, hserved⟩ := serve_isPart hpart hsmall hserve
      rw [hpart.outside node hkeep] at hresult
      cases hresult
      rwa [← hserved.values, ← hserved.queue, hsmall.values, hsmall.queue]
    | true =>
      rw [List.filter_cons_of_pos hkeep] at hother
      rw [← getElem?_restrict_of_keep hkeep] at hvalue
      have hserves (small : Progress ν α)
          (hqueue : small.queue = progress.queue.filter keep)
          (hvalues : small.values = restrict keep progress.values) :
          ∃ result, part.serve value (part.dependents node) small = .ok result ∧
            result.IsPart served keep := by
        rw [hpart.dependents node hkeep]
        exact serve_isPart hpart ⟨hvalues, hqueue⟩ hserve
      obtain ⟨result, hserved, hrest⟩ := hother.visited hvalue hserves
      rwa [← hserved.values, ← hserved.queue]
  | fails => cases hfinal

theorem foldl_sow_isPart {seeds : List (ν × α)} {progress small : Progress ν α}
    (h : small.IsPart progress keep) :
    ((seeds.filter fun seed => keep seed.1).foldl Progress.sow small).IsPart
      (seeds.foldl Progress.sow progress) keep := by
  induction seeds generalizing progress small with
  | nil => exact h
  | cons seed rest ih =>
    rw [List.foldl_cons]
    cases hkeep : keep seed.1 with
    | false =>
      rw [List.filter_cons_of_neg (by simp [hkeep])]
      apply ih
      unfold Progress.sow
      split
      case isTrue => exact h
      case isFalse => exact h.settle.2 hkeep
    | true =>
      have hmem : seed.1 ∈ small.values ↔ seed.1 ∈ progress.values := by
        rw [h.values, mem_restrict, and_iff_right hkeep]
      simp only [List.filter_cons, hkeep, if_true, List.foldl_cons]
      apply ih
      simp only [Progress.sow, hmem]
      split
      case isTrue => exact h
      case isFalse => exact h.settle.1 hkeep

theorem ofSeeds_isPart {seeds : List (ν × α)} :
    (Progress.ofSeeds (seeds.filter fun seed => keep seed.1)).IsPart
      (Progress.ofSeeds seeds) keep := by
  have hstart : (⟨∅, [], []⟩ : Progress ν α).IsPart ⟨∅, [], []⟩ keep := by
    constructor
    · apply Std.ExtTreeMap.ext_getElem?
      intro node
      simp [getElem?_restrict]
    · rfl
  exact foldl_sow_isPart hstart

/-- A propagation that does not fail gives the nodes of a part the values that a
propagation in the part alone gives them. -/
theorem propagate_of_part (hpart : part.IsPart graph keep) {seeds : List (ν × α)}
    {nodes others : List ν} (hnodes : graph.Encloses seeds nodes)
    (hothers : part.Encloses (seeds.filter fun seed => keep seed.1) others)
    {size small : Nat} (hsize : nodes.length ≤ size + seeds.length)
    (hsmall : others.length ≤
      small + (seeds.filter fun seed => keep seed.1).length)
    {final : Std.ExtTreeMap ν α} (h : graph.propagate size seeds = .ok final) :
    part.propagate small (seeds.filter fun seed => keep seed.1) =
      .ok (restrict keep final) := by
  have hdrains := propagate_drains hnodes hsize
  have hother := propagate_drains hothers hsmall
  rw [h] at hdrains
  rw [ofSeeds_isPart.queue, ofSeeds_isPart.values] at hother
  exact hdrains.of_part hpart hother

end EnumInline.Propagation
