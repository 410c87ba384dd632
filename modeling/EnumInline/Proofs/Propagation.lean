import EnumInline.Propagation
import EnumInline.Proofs.KeyedList
import Mathlib.Data.List.Perm.Subperm

/-!
What a propagation finds. Every value it gives to a node has come from a seed
along the edges, and when it ends no node that has a value still owes one to a
node that waits for it. Both hold for graphs of any shape. That the
propagation ends with an empty queue takes a list of nodes which the edges do
not leave and which is no longer than the bound that the propagation was
given.
-/

namespace EnumInline.Propagation

open KeyedList

variable {ν α ε : Type} [Ord ν] [Std.TransOrd ν]

/-- The nodes that are still to be visited, in the order in which they
will be. -/
def Progress.queue (progress : Progress ν α) : List ν :=
  progress.front ++ progress.back.reverse

@[simp]
theorem Progress.values_settle {progress : Progress ν α} {node : ν} {value : α} :
    (progress.settle node value).values = progress.values.insert node value := rfl

@[simp]
theorem Progress.queue_settle {progress : Progress ν α} {node : ν} {value : α} :
    (progress.settle node value).queue = progress.queue ++ [node] := by
  simp [Progress.queue, Progress.settle]

theorem Progress.queue_cons {values : Std.ExtTreeMap ν α} {node : ν}
    {front back : List ν} :
    (⟨values, node :: front, back⟩ : Progress ν α).queue =
      node :: (⟨values, front, back⟩ : Progress ν α).queue := rfl

/-- Gives a seed its value, unless it has one. -/
def Progress.sow (progress : Progress ν α) (seed : ν × α) : Progress ν α :=
  if seed.1 ∈ progress.values then progress else progress.settle seed.1 seed.2

theorem Progress.ofSeeds_eq {seeds : List (ν × α)} :
    ofSeeds seeds = seeds.foldl sow ⟨∅, [], []⟩ := rfl

/-- All nodes with a value are still to be visited, each once. -/
structure Progress.Unvisited (progress : Progress ν α) : Prop where
  queued : ∀ node ∈ progress.values, node ∈ progress.queue
  size : progress.values.size = progress.queue.length

/-- A value of a map has come from a seed, each node on its way having the value
it handed on. -/
inductive Arrives (graph : Propagation ν α ε) (seeds : List (ν × α))
    (values : Std.ExtTreeMap ν α) : ν → α → Prop where
  | seed {node : ν} {value : α} (hseed : FirstFor seeds node value)
      (hvalue : values[node]? = some value) : Arrives graph seeds values node value
  | step {awaited node : ν} {value derived : α}
      (hawaited : Arrives graph seeds values awaited value)
      (hedge : node ∈ graph.dependents awaited)
      (hderive : graph.derive node value = .ok (some derived))
      (hvalue : values[node]? = some derived) :
      Arrives graph seeds values node derived

/-- Every node of a list has a value, or cannot get one from `value`. -/
def Served (graph : Propagation ν α ε) (values : Std.ExtTreeMap ν α) (value : α)
    (nodes : List ν) : Prop :=
  ∀ node ∈ nodes, node ∈ values ∨ graph.derive node value = .ok none

/-- The invariant of a propagation. The nodes of `pending` have not been
visited yet. -/
structure Consistent (graph : Propagation ν α ε) (seeds : List (ν × α))
    (pending : List ν) (values : Std.ExtTreeMap ν α) : Prop where
  seeded : ∀ node value, FirstFor seeds node value → values[node]? = some value
  arrives : ∀ node value, values[node]? = some value →
    Arrives graph seeds values node value
  served : ∀ node value, values[node]? = some value → node ∉ pending →
    graph.Served values value (graph.dependents node)

/-- A failure of a propagation is that of a node that waits for a node
with a value. -/
def Fails (graph : Propagation ν α ε) (seeds : List (ν × α)) (error : ε) : Prop :=
  ∃ (values : Std.ExtTreeMap ν α) (awaited node : ν) (value : α),
    (∀ node value, FirstFor seeds node value → values[node]? = some value) ∧
    Arrives graph seeds values awaited value ∧ node ∈ graph.dependents awaited ∧
    node ∉ values ∧ graph.derive node value = .error error

/-- A list of nodes that contains the seeds and that no edge leaves. -/
structure Encloses (graph : Propagation ν α ε) (seeds : List (ν × α))
    (nodes : List ν) : Prop where
  seeds : ∀ seed ∈ seeds, seed.1 ∈ nodes
  dependents : ∀ node ∈ nodes, ∀ dependent ∈ graph.dependents node,
    dependent ∈ nodes

section Growth

variable {graph : Propagation ν α ε} {seeds : List (ν × α)} {pending : List ν}
  {values : Std.ExtTreeMap ν α}

theorem Served.insert {node : ν} {value awaited : α} {nodes : List ν}
    (h : graph.Served values awaited nodes) :
    graph.Served (values.insert node value) awaited nodes := by
  intro other hother
  rcases h other hother with hmem | hnone
  · exact Or.inl (Std.ExtTreeMap.mem_insert.mpr (Or.inr hmem))
  · exact Or.inr hnone

theorem Arrives.mem_of_encloses {nodes : List ν}
    (hnodes : graph.Encloses seeds nodes) {node : ν} {value : α}
    (h : Arrives graph seeds values node value) : node ∈ nodes := by
  induction h with
  | seed hseed _ => exact hnodes.seeds _ hseed.mem
  | step _ hedge _ _ ih => exact hnodes.dependents _ ih _ hedge

theorem Arrives.getElem? {node : ν} {value : α}
    (h : Arrives graph seeds values node value) : values[node]? = some value := by
  cases h with
  | seed _ hvalue => exact hvalue
  | step _ _ _ hvalue => exact hvalue

/-- A node without a value need not be visited. -/
theorem Consistent.absent {node : ν}
    (h : Consistent graph seeds (node :: pending) values)
    (hnone : values[node]? = none) : Consistent graph seeds pending values where
  seeded := h.seeded
  arrives := h.arrives
  served other value hother hpending := by
    have hsame : other ≠ node := by
      rintro rfl
      simp [hnone] at hother
    exact h.served other value hother (by simp [hsame, hpending])

/-- A node that has been served need not be visited again. -/
theorem Consistent.visited {node : ν} {value : α}
    (h : Consistent graph seeds (node :: pending) values)
    (hvalue : values[node]? = some value)
    (hserved : graph.Served values value (graph.dependents node)) :
    Consistent graph seeds pending values where
  seeded := h.seeded
  arrives := h.arrives
  served other old hother hpending := by
    by_cases hsame : other = node
    · subst hsame
      obtain rfl : value = old := Option.some.inj (hvalue.symm.trans hother)
      exact hserved
    · exact h.served other old hother (by simp [hsame, hpending])

theorem size_insert_of_fresh {node : ν} {value : α} (hfresh : node ∉ values) :
    (values.insert node value).size = values.size + 1 := by
  simp [Std.ExtTreeMap.size_insert, hfresh]

variable [Std.LawfulEqOrd ν]

theorem getElem?_insert_of_fresh {node other : ν} {value old : α}
    (hfresh : node ∉ values) (hold : values[other]? = some old) :
    (values.insert node value)[other]? = some old := by
  rw [Std.ExtTreeMap.getElem?_insert]
  have hne : node ≠ other := by
    rintro rfl
    exact hfresh (mem_iff_exists.mpr ⟨old, hold⟩)
  simpa [hne] using hold

theorem Arrives.insert {node other : ν} {value old : α} (hfresh : node ∉ values)
    (h : Arrives graph seeds values other old) :
    Arrives graph seeds (values.insert node value) other old := by
  induction h with
  | seed hseed hvalue => exact .seed hseed (getElem?_insert_of_fresh hfresh hvalue)
  | step _ hedge hderive hvalue ih =>
    exact .step ih hedge hderive (getElem?_insert_of_fresh hfresh hvalue)

/-- A node that gets a value along an edge keeps the invariant, and is to
be visited. -/
theorem Consistent.insert {awaited node : ν} {value derived : α}
    (h : Consistent graph seeds pending values)
    (hawaited : values[awaited]? = some value)
    (hedge : node ∈ graph.dependents awaited) (hfresh : node ∉ values)
    (hderive : graph.derive node value = .ok (some derived)) :
    Consistent graph seeds (pending ++ [node])
      (values.insert node derived) where
  seeded other old hother :=
    getElem?_insert_of_fresh hfresh (h.seeded other old hother)
  arrives other old hother := by
    by_cases hsame : node = other
    · subst hsame
      have hold : old = derived := by simpa using hother.symm
      subst hold
      exact .step ((h.arrives awaited value hawaited).insert hfresh)
        hedge hderive hother
    · have hother : values[other]? = some old := by
        simpa [Std.ExtTreeMap.getElem?_insert, hsame] using hother
      exact (h.arrives other old hother).insert hfresh
  served other old hother hpending := by
    have hsame : node ≠ other := by
      rintro rfl
      simp at hpending
    have hother : values[other]? = some old := by
      simpa [Std.ExtTreeMap.getElem?_insert, hsame] using hother
    exact (h.served other old hother (by simp_all)).insert

/-- No more nodes get a value than there are in a list that the edges do
not leave. -/
theorem Consistent.size_le {nodes : List ν}
    (h : Consistent graph seeds pending values)
    (hnodes : graph.Encloses seeds nodes) : values.size ≤ nodes.length := by
  rw [← Std.ExtTreeMap.length_keys]
  apply List.Subperm.length_le
  apply List.subperm_of_subset Std.ExtTreeMap.nodup_keys
  intro node hnode
  obtain ⟨value, hvalue⟩ := mem_iff_exists.mp (Std.ExtTreeMap.mem_keys.mp hnode)
  exact (h.arrives node value hvalue).mem_of_encloses hnodes

end Growth

section Steps

variable [Std.LawfulEqOrd ν] {graph : Propagation ν α ε} {seeds : List (ν × α)}

/-- What is handed to the nodes that wait for `awaited` keeps the invariant.
Each node that gets a value joins the queue. -/
theorem serve_ok {awaited : ν} {value : α} {nodes : List ν}
    (progress : Progress ν α) {served : Progress ν α}
    (h : Consistent graph seeds (awaited :: progress.queue) progress.values)
    (hvalue : progress.values[awaited]? = some value)
    (hnodes : ∀ node ∈ nodes, node ∈ graph.dependents awaited)
    (hserve : graph.serve value nodes progress = .ok served) :
    Consistent graph seeds (awaited :: served.queue) served.values ∧
      served.values[awaited]? = some value ∧
      (∀ node ∈ progress.values, node ∈ served.values) ∧
      graph.Served served.values value nodes ∧
      served.values.size + progress.queue.length =
        progress.values.size + served.queue.length := by
  induction nodes generalizing progress with
  | nil =>
    obtain rfl : progress = served := by simpa [serve] using hserve
    exact ⟨h, hvalue, fun _ hmem => hmem, by simp [Served], rfl⟩
  | cons node rest ih =>
    have hrest : ∀ node ∈ rest, node ∈ graph.dependents awaited :=
      fun other hother => hnodes other (by simp [hother])
    unfold serve at hserve
    split at hserve
    case isTrue hmem =>
      obtain ⟨hcons, hawaited, hkept, hserved, hsize⟩ :=
        ih progress h hvalue hrest hserve
      refine ⟨hcons, hawaited, hkept, ?_, hsize⟩
      simpa [Served, hkept node hmem] using hserved
    case isFalse hfresh =>
      split at hserve
      case h_1 => cases hserve
      case h_2 hderive =>
        obtain ⟨hcons, hawaited, hkept, hserved, hsize⟩ :=
          ih progress h hvalue hrest hserve
        refine ⟨hcons, hawaited, hkept, ?_, hsize⟩
        simpa [Served, hderive] using hserved
      case h_3 derived hderive =>
        have hsettled := h.insert hvalue (hnodes node (by simp)) hfresh hderive
        obtain ⟨hcons, hawaited, hkept, hserved, hsize⟩ :=
          ih (progress.settle node derived) (by simpa using hsettled)
            (getElem?_insert_of_fresh hfresh hvalue) hrest hserve
        have hmem (other : ν) (hother : other ∈ progress.values) : other ∈
            served.values :=
          hkept other (Std.ExtTreeMap.mem_insert.mpr (Or.inr hother))
        have hnode : node ∈ served.values :=
          hkept node Std.ExtTreeMap.mem_insert_self
        refine ⟨hcons, hawaited, hmem, ?_, ?_⟩
        · simpa [Served, hnode] using hserved
        · rw [Progress.values_settle, size_insert_of_fresh hfresh,
            Progress.queue_settle,
            List.length_append, List.length_singleton] at hsize
          omega

theorem serve_error {awaited : ν} {value : α} {nodes : List ν}
    (progress : Progress ν α) {error : ε}
    (h : Consistent graph seeds (awaited :: progress.queue) progress.values)
    (hvalue : progress.values[awaited]? = some value)
    (hnodes : ∀ node ∈ nodes, node ∈ graph.dependents awaited)
    (hserve : graph.serve value nodes progress = .error error) :
    graph.Fails seeds error := by
  induction nodes generalizing progress with
  | nil => simp [serve] at hserve
  | cons node rest ih =>
    have hrest : ∀ node ∈ rest, node ∈ graph.dependents awaited :=
      fun other hother => hnodes other (by simp [hother])
    unfold serve at hserve
    split at hserve
    case isTrue => exact ih progress h hvalue hrest hserve
    case isFalse hfresh =>
      split at hserve
      case h_1 hderive =>
        cases hserve
        exact ⟨progress.values, awaited, node, value, h.seeded,
          h.arrives awaited value hvalue,
          hnodes node (by simp), hfresh, hderive⟩
      case h_2 => exact ih progress h hvalue hrest hserve
      case h_3 derived hderive =>
        have hsettled := h.insert hvalue (hnodes node (by simp)) hfresh hderive
        exact ih (progress.settle node derived) (by simpa using hsettled)
          (getElem?_insert_of_fresh hfresh hvalue) hrest hserve

/-- The fuel that a propagation still needs if at most `bound` nodes
get a value. -/
def Progress.need (bound : Nat) (progress : Progress ν α) : Nat :=
  2 * (bound - progress.values.size + progress.queue.length) +
    if progress.front.isEmpty then 1 else 0

/-- What comes of a queue whose nodes are visited one by one, until none is left
or a visit fails. -/
inductive Drains (graph : Propagation ν α ε) :
    List ν → Std.ExtTreeMap ν α → Except ε (Std.ExtTreeMap ν α) → Prop where
  | done {values : Std.ExtTreeMap ν α} : Drains graph [] values (.ok values)
  | absent {node : ν} {rest : List ν} {values : Std.ExtTreeMap ν α}
      {result : Except ε (Std.ExtTreeMap ν α)} (hnone : values[node]? = none)
      (hrest : Drains graph rest values result) :
      Drains graph (node :: rest) values result
  | visit {node : ν} {rest : List ν} {values : Std.ExtTreeMap ν α} {value : α}
      {progress served : Progress ν α} {result : Except ε (Std.ExtTreeMap ν α)}
      (hvalue : values[node]? = some value)
      (hserve : graph.serve value (graph.dependents node) progress = .ok served)
      (hqueue : progress.queue = rest) (hvalues : progress.values = values)
      (hrest : Drains graph served.queue served.values result) :
      Drains graph (node :: rest) values result
  | fails {node : ν} {rest : List ν} {values : Std.ExtTreeMap ν α} {value : α}
      {progress : Progress ν α} {error : ε}
      (hvalue : values[node]? = some value)
      (hserve : graph.serve value (graph.dependents node) progress =
        .error error)
      (hqueue : progress.queue = rest) (hvalues : progress.values = values) :
      Drains graph (node :: rest) values (.error error)

/-- A run with enough fuel visits the whole queue. -/
theorem run_drains {nodes : List ν} (hnodes : graph.Encloses seeds nodes)
    {fuel : Nat} {progress : Progress ν α}
    (h : Consistent graph seeds progress.queue progress.values)
    (hfuel : progress.need nodes.length ≤ fuel) :
    graph.Drains progress.queue progress.values
      ((graph.run fuel progress).map Progress.values) := by
  fun_induction run graph fuel progress with
  | case1 progress =>
    simp only [Progress.need, Progress.queue] at hfuel
    cases hfront : progress.front <;> simp_all
  | case2 fuel values back hback =>
    obtain rfl : back = [] := by simpa using hback
    exact .done
  | case3 fuel values back hback ih =>
    have hne : back ≠ [] := by simpa using hback
    have hrest := ih (by simpa [Progress.queue] using h) (by
      simp [Progress.need, Progress.queue, hne] at hfuel ⊢
      omega)
    simpa [Progress.queue] using hrest
  | case4 fuel values node front back hnone ih =>
    apply Drains.absent hnone
    apply ih (h.absent hnone)
    simp [Progress.need, Progress.queue] at hfuel ⊢
    split <;> omega
  | case5 fuel values node front back value hvalue error hserve =>
    exact .fails hvalue hserve rfl rfl
  | case6 fuel values node front back value hvalue progress hserve ih =>
    obtain ⟨hcons, hawaited, _, hserved, hsize⟩ :=
      serve_ok ⟨values, front, back⟩ h hvalue (fun _ hmem => hmem) hserve
    have hbound := hcons.size_le hnodes
    refine .visit hvalue hserve rfl rfl ?_
    apply ih (hcons.visited hawaited hserved)
    simp [Progress.need, Progress.queue_cons] at hfuel ⊢
    dsimp only at hsize
    split <;> omega

/-- Where the whole queue has been visited, no node owes a value. -/
theorem Drains.consistent {queue : List ν} {values final : Std.ExtTreeMap ν α}
    (hdrains : graph.Drains queue values (.ok final))
    (h : Consistent graph seeds queue values) :
    Consistent graph seeds [] final := by
  generalize hfinal : Except.ok final = result at hdrains
  induction hdrains with
  | done =>
    cases hfinal
    exact h
  | absent hnone _ ih => exact ih (h.absent hnone) hfinal
  | @visit node _ _ value progress served _ hvalue hserve hqueue hvalues _ ih =>
    subst hqueue hvalues
    obtain ⟨hcons, hawaited, _, hserved, _⟩ :=
      serve_ok progress h hvalue (fun _ hmem => hmem) hserve
    exact ih (hcons.visited hawaited hserved) hfinal
  | fails => cases hfinal

theorem run_error {fuel : Nat} {progress : Progress ν α} {error : ε}
    (h : Consistent graph seeds progress.queue progress.values)
    (hrun : graph.run fuel progress = .error error) :
    graph.Fails seeds error := by
  fun_induction run graph fuel progress with
  | case1 => cases hrun
  | case2 => cases hrun
  | case3 fuel values back hback ih =>
    exact ih (by simpa [Progress.queue] using h) hrun
  | case4 fuel values node front back hnone ih =>
    exact ih (h.absent hnone) hrun
  | case5 fuel values node front back value hvalue error hserve =>
    cases hrun
    exact serve_error ⟨values, front, back⟩ h hvalue (fun _ hmem => hmem) hserve
  | case6 fuel values node front back value hvalue progress hserve ih =>
    obtain ⟨hcons, hawaited, _, hserved, _⟩ :=
      serve_ok ⟨values, front, back⟩ h hvalue (fun _ hmem => hmem) hserve
    exact ih (hcons.visited hawaited hserved) hrun

theorem Progress.getElem?_sow {progress : Progress ν α} {seed : ν × α} {node : ν}
    {value : α} :
    (progress.sow seed).values[node]? = some value ↔
      progress.values[node]? = some value ∨
        node ∉ progress.values ∧ seed = (node, value) := by
  obtain ⟨seeded, first⟩ := seed
  unfold sow
  split
  case isTrue hmem =>
    constructor
    · exact Or.inl
    · rintro (hold | ⟨hfresh, heq⟩)
      · exact hold
      · cases heq
        exact absurd hmem hfresh
  case isFalse hfresh =>
    rw [values_settle, Std.ExtTreeMap.getElem?_insert]
    by_cases hsame : seeded = node
    · subst hsame
      simp [hfresh]
    · simp [hsame]

theorem Progress.mem_sow {progress : Progress ν α} {seed : ν × α} {node : ν} :
    node ∈ (progress.sow seed).values ↔
      node ∈ progress.values ∨ seed.1 = node := by
  unfold sow
  split
  case isTrue hmem =>
    constructor
    · exact Or.inl
    · rintro (hold | rfl)
      · exact hold
      · exact hmem
  case isFalse => simp [or_comm]

/-- Of several values for a node the first counts. -/
theorem Progress.getElem?_foldl_sow {progress : Progress ν α} {node : ν}
    {value : α} :
    (seeds.foldl sow progress).values[node]? = some value ↔
      progress.values[node]? = some value ∨
        node ∉ progress.values ∧ FirstFor seeds node value := by
  induction seeds generalizing progress with
  | nil => simp [not_firstFor_nil]
  | cons seed rest ih =>
    rw [List.foldl_cons, ih, getElem?_sow, mem_sow, firstFor_cons, not_or,
      or_assoc, and_or_left, and_assoc]

theorem Progress.Unvisited.sow {progress : Progress ν α} (h : progress.Unvisited)
    {seed : ν × α} : (progress.sow seed).Unvisited := by
  unfold Progress.sow
  split
  case isTrue => exact h
  case isFalse hfresh =>
    constructor
    · intro node hnode
      rw [queue_settle]
      rcases Std.ExtTreeMap.mem_insert.mp hnode with hsame | hold
      · obtain rfl : seed.1 = node := by simpa using hsame
        exact List.mem_append_right _ (by simp)
      · exact List.mem_append_left _ (h.queued node hold)
    · rw [values_settle, size_insert_of_fresh hfresh, queue_settle, h.size]
      simp

theorem Progress.unvisited_ofSeeds : (ofSeeds seeds).Unvisited := by
  apply List.foldlRecOn seeds sow
  · exact ⟨by simp, rfl⟩
  · exact fun _ h _ _ => h.sow

theorem Progress.getElem?_ofSeeds {node : ν} {value : α} :
    (ofSeeds seeds).values[node]? = some value ↔ FirstFor seeds node value := by
  rw [ofSeeds_eq, getElem?_foldl_sow]
  simp

/-- At the start every seed has its first value and is to be visited. -/
theorem ofSeeds_consistent :
    Consistent graph seeds (Progress.ofSeeds seeds).queue
      (Progress.ofSeeds seeds).values := by
  refine ⟨fun node value => Progress.getElem?_ofSeeds.mpr,
    fun node value hvalue => ?_, ?_⟩
  · exact .seed (Progress.getElem?_ofSeeds.mp hvalue) hvalue
  · intro node value hvalue hpending
    exact absurd (Progress.unvisited_ofSeeds.queued node
      (mem_iff_exists.mpr ⟨value, hvalue⟩)) hpending

/-- A propagation whose bound is large enough visits all nodes that get
a value. -/
theorem propagate_drains {nodes : List ν} (hnodes : graph.Encloses seeds nodes)
    {size : Nat} (hsize : nodes.length ≤ size + seeds.length) :
    graph.Drains (Progress.ofSeeds seeds).queue (Progress.ofSeeds seeds).values
      (graph.propagate size seeds) := by
  have hstart : Consistent graph seeds (Progress.ofSeeds seeds).queue
      (Progress.ofSeeds seeds).values :=
    ofSeeds_consistent
  have hbound := hstart.size_le hnodes
  have hlength : (Progress.ofSeeds seeds).values.size =
      (Progress.ofSeeds seeds).queue.length :=
    Progress.unvisited_ofSeeds.size
  apply run_drains hnodes hstart
  simp [Progress.queue] at hlength
  simp [Progress.need, Progress.queue]
  split <;> omega

/-- A propagation whose bound is large enough ends: every value has come from a
seed, and no node that waits for a node with a value can still get one. -/
theorem propagate_ok {nodes : List ν} (hnodes : graph.Encloses seeds nodes)
    {size : Nat} (hsize : nodes.length ≤ size + seeds.length)
    {values : Std.ExtTreeMap ν α}
    (h : graph.propagate size seeds = .ok values) :
    Consistent graph seeds [] values := by
  have hdrains := propagate_drains hnodes hsize
  rw [h] at hdrains
  exact hdrains.consistent ofSeeds_consistent

theorem propagate_error {size : Nat} {error : ε}
    (h : graph.propagate size seeds = .error error) :
    graph.Fails seeds error := by
  unfold propagate at h
  cases hrun : graph.run (2 * (size + seeds.length) + 2) (.ofSeeds seeds) with
  | error cause =>
    obtain rfl : cause = error := by simpa [hrun, Except.map] using h
    exact run_error ofSeeds_consistent hrun
  | ok finished => simp [hrun, Except.map] at h

end Steps

end EnumInline.Propagation
