import EnumInline.Proofs.Propagation.Stages

/-!
How far a value has come. Nodes are visited in the order in which they get their
values, so that all nodes at one distance from the seeds are visited before any
that is farther away. Where every node takes the value that is handed to it, no
node can get its value over a detour.
-/

namespace EnumInline.Propagation

open KeyedList

variable {ν α ε : Type} [Ord ν] [Std.TransOrd ν]

/-- Every node can take every value that is handed to it. -/
def IsTotal (graph : Propagation ν α ε) : Prop :=
  ∀ node value, ∃ derived, graph.derive node value = .ok (some derived)

/-- A walk of a number of hops leads from a seed to a node. -/
inductive Walk (graph : Propagation ν α ε) (seeds : List (ν × α)) : Nat → ν → Prop where
  | seed {node : ν} {value : α} (hseed : (node, value) ∈ seeds) : Walk graph seeds 0 node
  | hop {hops : Nat} {awaited node : ν} (hwalk : Walk graph seeds hops awaited)
      (hedge : node ∈ graph.dependents awaited) : Walk graph seeds (hops + 1) node

/-- A walk of a number of hops hands the first value of a seed on to a node, each
node on its way deriving its own value from the one it is handed. -/
inductive Carries (graph : Propagation ν α ε) (seeds : List (ν × α)) :
    Nat → ν → α → Prop where
  | seed {node : ν} {value : α} (hseed : FirstFor seeds node value) :
      Carries graph seeds 0 node value
  | hop {hops : Nat} {awaited node : ν} {value derived : α}
      (hcarries : Carries graph seeds hops awaited value)
      (hedge : node ∈ graph.dependents awaited)
      (hderive : graph.derive node value = .ok (some derived)) :
      Carries graph seeds (hops + 1) node derived

/-- No walk to a node is shorter than the number of hops. -/
def IsLeast (graph : Propagation ν α ε) (seeds : List (ν × α)) (hops : Nat)
    (node : ν) : Prop :=
  ∀ others, Walk graph seeds others node → hops ≤ others

/-- A value has come to a node on a walk, and no walk to the node is shorter. -/
def Nearest (graph : Propagation ν α ε) (seeds : List (ν × α)) (hops : Nat)
    (node : ν) (value : α) : Prop :=
  Carries graph seeds hops node value ∧ IsLeast graph seeds hops node

/-- The invariant of a visit after the other. The nodes of `current` are `depth`
hops away from the seeds, and those of `following` one hop more; the nodes that
are no farther away than the former have their values. -/
structure Layered (graph : Propagation ν α ε) (seeds : List (ν × α)) (depth : Nat)
    (current following : List ν) (values : Std.ExtTreeMap ν α) : Prop where
  reached : ∀ hops node, Walk graph seeds hops node → hops ≤ depth → node ∈ values
  nearest : ∀ node value, values[node]? = some value →
    ∃ hops, Nearest graph seeds hops node value
  current : ∀ node ∈ current, Walk graph seeds depth node ∧ IsLeast graph seeds depth node
  following : ∀ node ∈ following,
    Walk graph seeds (depth + 1) node ∧ IsLeast graph seeds (depth + 1) node

variable {graph : Propagation ν α ε} {seeds : List (ν × α)} {depth hops others : Nat}
  {node : ν} {value : α} {current following : List ν} {values : Std.ExtTreeMap ν α}

omit [Ord ν] [Std.TransOrd ν] in
theorem Carries.walk (h : Carries graph seeds hops node value) :
    Walk graph seeds hops node := by
  induction h with
  | seed hseed => exact .seed hseed.mem
  | hop _ hedge _ ih => exact .hop ih hedge

omit [Ord ν] [Std.TransOrd ν] in
theorem IsLeast.unique (h : Walk graph seeds hops node) (hleast : IsLeast graph seeds hops node)
    (hother : Walk graph seeds others node) (hothers : IsLeast graph seeds others node) :
    hops = others :=
  Nat.le_antisymm (hleast others hother) (hothers hops h)

theorem Layered.of_cons (h : Layered graph seeds depth (node :: current) following values) :
    Layered graph seeds depth current following values :=
  { h with current := fun other hother => h.current other (List.mem_cons_of_mem _ hother) }

/-- A node that has been visited has handed its value to all that wait for it. -/
theorem Consistent.mem_of_edge {pending : List ν} {awaited : ν}
    (h : Consistent graph seeds pending values) (htotal : graph.IsTotal)
    (hawaited : awaited ∈ values) (hpending : awaited ∉ pending)
    (hedge : node ∈ graph.dependents awaited) : node ∈ values := by
  obtain ⟨value, hvalue⟩ := mem_iff_exists.mp hawaited
  rcases h.served awaited value hvalue hpending node hedge with hmem | hnone
  · exact hmem
  · obtain ⟨derived, hderived⟩ := htotal node value
    cases hnone.symm.trans hderived

theorem Consistent.mem_of_seed {pending : List ν}
    (h : Consistent graph seeds pending values) (hseed : (node, value) ∈ seeds) :
    node ∈ values := by
  obtain ⟨first, hfirst⟩ := exists_firstFor hseed
  exact mem_iff_exists.mpr ⟨first, h.seeded node first hfirst⟩

/-- The value of a node at the current distance has come on a walk of as many
hops. -/
theorem Layered.carries (h : Layered graph seeds depth (node :: current) following values)
    (hvalue : values[node]? = some value) : Carries graph seeds depth node value := by
  obtain ⟨hwalk, hleast⟩ := h.current node (by simp)
  obtain ⟨hops, hcarries, hnearest⟩ := h.nearest node value hvalue
  obtain rfl := IsLeast.unique hcarries.walk hnearest hwalk hleast
  exact hcarries

/-- A walk only leads to nodes that get a value. -/
theorem Consistent.mem_of_walk (h : Consistent graph seeds [] values)
    (htotal : graph.IsTotal) (hwalk : Walk graph seeds hops node) : node ∈ values := by
  induction hwalk with
  | seed hseed => exact h.mem_of_seed hseed
  | hop _ hedge ih => exact h.mem_of_edge htotal ih (by simp) hedge

/-- When all nodes at one distance have been visited, all that are one hop farther
away have their values. -/
theorem Layered.advance (h : Layered graph seeds depth [] following values)
    (hconsistent : Consistent graph seeds following values) (htotal : graph.IsTotal) :
    Layered graph seeds (depth + 1) following [] values where
  reached hops node hwalk hhops := by
    cases hwalk with
    | seed hseed => exact hconsistent.mem_of_seed hseed
    | @hop hops awaited _ hwalk hedge =>
      have hpending : awaited ∉ following := by
        intro hmem
        have hleast := (h.following awaited hmem).2 hops hwalk
        omega
      have hawaited : awaited ∈ values := h.reached hops awaited hwalk (by omega)
      exact hconsistent.mem_of_edge htotal hawaited hpending hedge
  nearest := h.nearest
  current := h.following
  following := by simp

/-- The next node to be visited can be taken to be at the current distance. -/
theorem Layered.exists_cons {rest : List ν}
    (h : Layered graph seeds depth current following values)
    (hqueue : node :: rest = current ++ following)
    (hconsistent : Consistent graph seeds (node :: rest) values) (htotal : graph.IsTotal) :
    ∃ depth current following, rest = current ++ following ∧
      Layered graph seeds depth (node :: current) following values := by
  cases current with
  | cons first current =>
    obtain ⟨rfl, rfl⟩ := List.cons.inj hqueue
    exact ⟨depth, current, following, rfl, h⟩
  | nil =>
    rw [List.nil_append] at hqueue
    subst hqueue
    exact ⟨depth + 1, rest, [], by simp, h.advance hconsistent htotal⟩

variable [Std.LawfulEqOrd ν]

/-- A node that waits for one at the current distance and has no value yet is one
hop farther away. -/
theorem Layered.settle {awaited : ν} {derived : α}
    (h : Layered graph seeds depth current following values)
    (hcarries : Carries graph seeds depth awaited value)
    (hedge : node ∈ graph.dependents awaited) (hfresh : node ∉ values)
    (hderive : graph.derive node value = .ok (some derived)) :
    Layered graph seeds depth current (following ++ [node]) (values.insert node derived) := by
  have hcarried : Carries graph seeds (depth + 1) node derived := .hop hcarries hedge hderive
  have hleast : IsLeast graph seeds (depth + 1) node := by
    intro hops hwalk
    by_contra hshorter
    exact hfresh (h.reached hops node hwalk (by omega))
  refine ⟨fun hops other hwalk hhops => ?_, fun other old hother => ?_, h.current, ?_⟩
  · exact Std.ExtTreeMap.mem_insert.mpr (Or.inr (h.reached hops other hwalk hhops))
  · by_cases hsame : node = other
    · subst hsame
      obtain rfl : derived = old := by simpa using hother
      exact ⟨depth + 1, hcarried, hleast⟩
    · apply h.nearest other old
      simpa [Std.ExtTreeMap.getElem?_insert, hsame] using hother
  · intro other hother
    rcases List.mem_append.mp hother with hold | hnew
    · exact h.following other hold
    · obtain rfl := List.mem_singleton.mp hnew
      exact ⟨hcarried.walk, hleast⟩

/-- Handing on a value from the current distance only adds nodes that are one hop
farther away. -/
theorem serve_layered {awaited : ν} {nodes : List ν} (progress : Progress ν α)
    {served : Progress ν α}
    (h : Layered graph seeds depth current following progress.values)
    (hqueue : progress.queue = current ++ following)
    (hcarries : Carries graph seeds depth awaited value)
    (hnodes : ∀ node ∈ nodes, node ∈ graph.dependents awaited)
    (hserve : graph.serve value nodes progress = .ok served) :
    ∃ added, served.queue = current ++ (following ++ added) ∧
      Layered graph seeds depth current (following ++ added) served.values := by
  induction nodes generalizing progress following with
  | nil =>
    obtain rfl : progress = served := by simpa [serve] using hserve
    exact ⟨[], by simpa using hqueue, by simpa using h⟩
  | cons node rest ih =>
    obtain ⟨hnode, hrest⟩ := List.forall_mem_cons.mp hnodes
    unfold serve at hserve
    split at hserve
    case isTrue => exact ih progress h hqueue hrest hserve
    case isFalse hfresh =>
      split at hserve
      case h_1 => cases hserve
      case h_2 => exact ih progress h hqueue hrest hserve
      case h_3 derived hderive =>
        have hsettled := h.settle hcarries hnode hfresh hderive
        obtain ⟨added, hadded, hlayered⟩ :=
          ih (progress.settle node derived) hsettled (by simp [hqueue]) hrest hserve
        exact ⟨node :: added, by simpa using hadded, by simpa using hlayered⟩

theorem Drains.nearest {queue : List ν} {final : Std.ExtTreeMap ν α}
    (hdrains : graph.Drains queue values (.ok final)) (htotal : graph.IsTotal)
    (hconsistent : Consistent graph seeds queue values)
    (h : Layered graph seeds depth current following values)
    (hqueue : queue = current ++ following) :
    ∀ node value, final[node]? = some value → ∃ hops, Nearest graph seeds hops node value := by
  generalize hfinal : Except.ok final = result at hdrains
  induction hdrains generalizing depth current following with
  | done =>
    cases hfinal
    exact h.nearest
  | absent hnone _ ih =>
    obtain ⟨depth, current, following, hrest, h⟩ := h.exists_cons hqueue hconsistent htotal
    exact ih (hconsistent.absent hnone) h.of_cons hrest hfinal
  | @visit node rest values value progress served _ hvalue hserve hprogress hvalues _ ih =>
    obtain ⟨depth, current, following, hrest, h⟩ := h.exists_cons hqueue hconsistent htotal
    subst hprogress hvalues
    obtain ⟨added, hadded, hlayered⟩ :=
      serve_layered progress h.of_cons hrest (h.carries hvalue) (fun _ hmem => hmem) hserve
    obtain ⟨hserved, hawaited, -, hall, -⟩ :=
      serve_ok progress hconsistent hvalue (fun _ hmem => hmem) hserve
    exact ih (hserved.visited hawaited hall) hlayered hadded hfinal
  | fails => cases hfinal

/-- At the start the seeds are at the current distance, and there is no other. -/
theorem layered_ofSeeds :
    Layered graph seeds 0 (Progress.ofSeeds seeds).queue []
      (Progress.ofSeeds seeds).values := by
  have hstart : Consistent graph seeds (Progress.ofSeeds seeds).queue
      (Progress.ofSeeds seeds).values :=
    ofSeeds_consistent
  refine ⟨fun hops node hwalk hhops => ?_, fun node value hvalue => ?_, fun node hnode => ?_,
    by simp⟩
  · cases hwalk with
    | seed hseed => exact hstart.mem_of_seed hseed
    | hop => omega
  · exact ⟨0, .seed (Progress.getElem?_ofSeeds.mp hvalue), fun _ _ => Nat.zero_le _⟩
  · obtain ⟨value, hvalue⟩ :=
      mem_iff_exists.mp ((Progress.nodup_queue_ofSeeds.2 node).mpr hnode)
    have hseed : (node, value) ∈ seeds := (Progress.getElem?_ofSeeds.mp hvalue).mem
    exact ⟨.seed hseed, fun _ _ => Nat.zero_le _⟩

/-- Over a finite graph whose nodes take every value, a propagation succeeds. It gives
values to the nodes to which a walk leads, and to no others, and each value has come
on a shortest one. -/
theorem propagate_nearest {nodes : List ν} (hnodes : graph.Encloses seeds nodes) {size : Nat}
    (hsize : nodes.length ≤ size + seeds.length) (htotal : graph.IsTotal) :
    ∃ values, graph.propagate size seeds = .ok values ∧
      (∀ node, node ∈ values ↔ ∃ hops, Walk graph seeds hops node) ∧
      ∀ node value, values[node]? = some value →
        ∃ hops, Nearest graph seeds hops node value := by
  have hdrains := propagate_drains hnodes hsize
  cases hresult : graph.propagate size seeds with
  | error error =>
    obtain ⟨_, _, node, value, -, -, -, -, hderive⟩ := propagate_error hresult
    obtain ⟨derived, hderived⟩ := htotal node value
    cases hderive.symm.trans hderived
  | ok values =>
    rw [hresult] at hdrains
    have hconsistent : Consistent graph seeds [] values := propagate_ok hnodes hsize hresult
    have hnearest := hdrains.nearest htotal ofSeeds_consistent layered_ofSeeds (by simp)
    refine ⟨values, rfl, fun node => ⟨fun hmem => ?_, ?_⟩, hnearest⟩
    · obtain ⟨value, hvalue⟩ := mem_iff_exists.mp hmem
      obtain ⟨hops, hcarries, -⟩ := hnearest node value hvalue
      exact ⟨hops, hcarries.walk⟩
    · rintro ⟨hops, hwalk⟩
      exact hconsistent.mem_of_walk htotal hwalk

end EnumInline.Propagation
