import EnumInline.Proofs.Propagation
import Mathlib.Data.List.Nodup
import Mathlib.Data.Prod.Lex
import Mathlib.Logic.Relation

/-!
A propagation as a machine that takes one node after the other from a queue.
The stages that it goes through keep all nodes that have ever been put in the
queue, so that a node put there twice would be seen. The values that a
propagation returns are those of a stage at which nothing is left to do; where
it fails, it is at a stage at which the next node cannot be given a value.
-/

namespace EnumInline.Propagation

open KeyedList

variable {ν α ε : Type} [Ord ν] [Std.TransOrd ν]

/-- Where a propagation stands. Of the nodes that wait for the one taken last,
those in `serving` are still to be looked at, each with the value that the
node taken last has for it. -/
structure Stage (ν α : Type) [Ord ν] [Std.TransOrd ν] where
  taken : List ν
  serving : List (ν × α)
  queue : List ν
  values : Std.ExtTreeMap ν α

namespace Stage

/-- All nodes that have been put in the queue so far. -/
def queued (stage : Stage ν α) : List ν := stage.taken ++ stage.queue

/-- The stage between two visits at which a run has come to `progress`. -/
def ofProgress (taken : List ν) (progress : Progress ν α) : Stage ν α :=
  ⟨taken, [], progress.queue, progress.values⟩

/-- The first stage: the seeds have their values and are in the queue. -/
def ofSeeds (seeds : List (ν × α)) : Stage ν α :=
  ofProgress [] (Progress.ofSeeds seeds)

end Stage

/-- What a propagation does next. Nothing follows a stage at which the queue is
empty, nor one at which the next node cannot be given a value. -/
inductive Step (graph : Propagation ν α ε) : Stage ν α → Stage ν α → Prop where
  | take {taken : List ν} {node : ν} {queue : List ν}
      {values : Std.ExtTreeMap ν α} {value : α}
      (hvalue : values[node]? = some value) :
      Step graph ⟨taken, [], node :: queue, values⟩
        ⟨taken ++ [node], (graph.dependents node).map (·, value), queue, values⟩
  | keep {taken : List ν} {node : ν} {value : α} {rest : List (ν × α)}
      {queue : List ν} {values : Std.ExtTreeMap ν α} (hmem : node ∈ values) :
      Step graph ⟨taken, (node, value) :: rest, queue, values⟩
        ⟨taken, rest, queue, values⟩
  | skip {taken : List ν} {node : ν} {value : α} {rest : List (ν × α)}
      {queue : List ν} {values : Std.ExtTreeMap ν α} (hfresh : node ∉ values)
      (hderive : graph.derive node value = .ok none) :
      Step graph ⟨taken, (node, value) :: rest, queue, values⟩
        ⟨taken, rest, queue, values⟩
  | settle {taken : List ν} {node : ν} {value derived : α}
      {rest : List (ν × α)} {queue : List ν} {values : Std.ExtTreeMap ν α}
      (hfresh : node ∉ values)
      (hderive : graph.derive node value = .ok (some derived)) :
      Step graph ⟨taken, (node, value) :: rest, queue, values⟩
        ⟨taken, rest, queue ++ [node], values.insert node derived⟩

/-- A stage that the propagation from the given seeds comes to. -/
def Reached (graph : Propagation ν α ε) (seeds : List (ν × α)) :
    Stage ν α → Prop :=
  Relation.ReflTransGen graph.Step (.ofSeeds seeds)

/-- The invariant of the stages: the nodes with a value are those that have been
put in the queue, each once; values come from the seeds; and what is being
served waits for a node that has the value it is served with. -/
structure Stage.Sound (graph : Propagation ν α ε) (seeds : List (ν × α))
    (stage : Stage ν α) : Prop where
  nodup : stage.queued.Nodup
  mem_values : ∀ node, node ∈ stage.values ↔ node ∈ stage.queued
  seeded : ∀ node value, FirstFor seeds node value →
    stage.values[node]? = some value
  arrives : ∀ node value, stage.values[node]? = some value →
    Arrives graph seeds stage.values node value
  serving : ∀ node value, (node, value) ∈ stage.serving →
    ∃ awaited, Arrives graph seeds stage.values awaited value ∧
      node ∈ graph.dependents awaited

section Invariant

variable [Std.LawfulEqOrd ν] {graph : Propagation ν α ε} {seeds : List (ν × α)}
  {stage next : Stage ν α}

theorem Progress.nodup_queue_sow {progress : Progress ν α} {seed : ν × α}
    (hnodup : progress.queue.Nodup)
    (hmem : ∀ node, node ∈ progress.values ↔ node ∈ progress.queue) :
    (progress.sow seed).queue.Nodup ∧
      ∀ node, node ∈ (progress.sow seed).values ↔
        node ∈ (progress.sow seed).queue := by
  unfold sow
  split
  case isTrue => exact ⟨hnodup, hmem⟩
  case isFalse hfresh =>
    rw [hmem] at hfresh
    rw [queue_settle]
    constructor
    · exact hnodup.append (List.nodup_singleton _)
        (List.disjoint_singleton.mpr hfresh)
    · intro node
      rw [values_settle, Std.ExtTreeMap.mem_insert, hmem,
        Std.compare_eq_iff_eq, List.mem_append, List.mem_singleton, or_comm,
        eq_comm]

theorem Progress.nodup_queue_ofSeeds :
    (ofSeeds seeds).queue.Nodup ∧
      ∀ node, node ∈ (ofSeeds seeds).values ↔ node ∈ (ofSeeds seeds).queue := by
  rw [ofSeeds_eq]
  refine List.foldlRecOn seeds sow
    (motive := fun progress => progress.queue.Nodup ∧
      ∀ node, node ∈ progress.values ↔ node ∈ progress.queue) ?_ ?_
  · simp [queue]
  · intro progress h seed _
    exact nodup_queue_sow h.1 h.2

theorem Stage.sound_ofSeeds : (Stage.ofSeeds seeds).Sound graph seeds := by
  have hstart : Consistent graph seeds (Progress.ofSeeds seeds).queue
      (Progress.ofSeeds seeds).values :=
    ofSeeds_consistent
  exact {
    nodup := Progress.nodup_queue_ofSeeds.1
    mem_values := Progress.nodup_queue_ofSeeds.2
    seeded := hstart.seeded
    arrives := hstart.arrives
    serving := by simp [ofSeeds, ofProgress] }

/-- A node that gets a value joins the queue, in which it has never been. -/
theorem Stage.Sound.settle {taken queue : List ν} {node : ν} {value derived : α}
    {rest : List (ν × α)} {values : Std.ExtTreeMap ν α}
    (h : Stage.Sound graph seeds ⟨taken, (node, value) :: rest, queue, values⟩)
    (hfresh : node ∉ values)
    (hderive : graph.derive node value = .ok (some derived)) :
    Stage.Sound graph seeds
      ⟨taken, rest, queue ++ [node], values.insert node derived⟩ where
  nodup := by
    have hqueued : node ∉ taken ++ queue := fun hmem =>
      hfresh ((h.mem_values node).mpr hmem)
    have hnodup : (taken ++ queue ++ [node]).Nodup :=
      h.nodup.append (List.nodup_singleton _)
        (List.disjoint_singleton.mpr hqueued)
    rwa [List.append_assoc] at hnodup
  mem_values other := by
    have hother : other ∈ values ↔ other ∈ taken ++ queue := h.mem_values other
    rw [Std.ExtTreeMap.mem_insert, Std.compare_eq_iff_eq, hother, queued,
      ← List.append_assoc, List.mem_append (s := taken ++ queue),
      List.mem_singleton, or_comm, eq_comm]
  seeded other old hother :=
    getElem?_insert_of_fresh hfresh (h.seeded other old hother)
  arrives other old hother := by
    by_cases hsame : node = other
    · subst hsame
      obtain ⟨awaited, harrives, hedge⟩ := h.serving node value (by simp)
      obtain rfl : derived = old := by simpa using hother
      exact .step (harrives.insert hfresh) hedge hderive hother
    · have hold : values[other]? = some old := by
        simpa [Std.ExtTreeMap.getElem?_insert, hsame] using hother
      exact (h.arrives other old hold).insert hfresh
  serving other old hother := by
    obtain ⟨awaited, harrives, hedge⟩ :=
      h.serving other old (List.mem_cons_of_mem _ hother)
    exact ⟨awaited, harrives.insert hfresh, hedge⟩

theorem Stage.Sound.step (h : stage.Sound graph seeds)
    (hstep : graph.Step stage next) : next.Sound graph seeds := by
  cases hstep with
  | @take taken node queue values value hvalue =>
    refine ⟨?_, ?_, h.seeded, h.arrives, ?_⟩
    · simpa [queued] using h.nodup
    · simpa [queued] using h.mem_values
    · intro dependent given hgiven
      obtain ⟨_, hedge, heq⟩ := List.mem_map.mp hgiven
      cases heq
      exact ⟨node, h.arrives node value hvalue, hedge⟩
  | keep hmem =>
    exact { h with
      serving := fun _ _ hgiven => h.serving _ _ (List.mem_cons_of_mem _ hgiven) }
  | skip hfresh hderive =>
    exact { h with
      serving := fun _ _ hgiven => h.serving _ _ (List.mem_cons_of_mem _ hgiven) }
  | settle hfresh hderive => exact h.settle hfresh hderive

theorem Reached.sound (h : graph.Reached seeds stage) :
    stage.Sound graph seeds := by
  induction h with
  | refl => exact Stage.sound_ofSeeds
  | tail _ hstep ih => exact ih.step hstep

end Invariant

section Termination

variable {graph : Propagation ν α ε} {seeds : List (ν × α)}
  {nodes : List ν} {stage next : Stage ν α}

theorem Stage.Sound.length_queued_le (h : stage.Sound graph seeds)
    (hnodes : graph.Encloses seeds nodes) :
    stage.queued.length ≤ nodes.length := by
  apply List.Subperm.length_le
  apply List.subperm_of_subset h.nodup
  intro node hnode
  obtain ⟨value, hvalue⟩ := mem_iff_exists.mp ((h.mem_values node).mpr hnode)
  exact (h.arrives node value hvalue).mem_of_encloses hnodes

/-- What is left to do at a stage if at most `bound` nodes get a value: first the
nodes that can still be put in the queue, then those in it, then those that
are being served. -/
def Stage.left (bound : Nat) (stage : Stage ν α) : Nat ×ₗ Nat ×ₗ Nat :=
  toLex (bound - stage.queued.length,
    toLex (stage.queue.length, stage.serving.length))

theorem Step.left_lt (hstep : graph.Step stage next)
    (hnext : next.queued.length ≤ nodes.length) :
    next.left nodes.length < stage.left nodes.length := by
  cases hstep with
  | take hvalue => simp [Stage.left, Stage.queued, Prod.Lex.toLex_lt_toLex]
  | keep hmem => simp [Stage.left, Stage.queued, Prod.Lex.toLex_lt_toLex]
  | skip hfresh hderive =>
    simp [Stage.left, Stage.queued, Prod.Lex.toLex_lt_toLex]
  | settle hfresh hderive =>
    simp only [Stage.queued, List.length_append, List.length_singleton] at hnext
    rw [Stage.left, Stage.left, Prod.Lex.toLex_lt_toLex]
    simp only [Stage.queued, List.length_append, List.length_singleton]
    left
    omega

/-- No run over a finite graph goes on without end. -/
theorem Reached.acc [Std.LawfulEqOrd ν] (hnodes : graph.Encloses seeds nodes)
    (h : graph.Reached seeds stage) :
    Acc (fun next stage => graph.Step stage next) stage := by
  have hwf : WellFounded fun first second : Stage ν α =>
      first.left nodes.length < second.left nodes.length :=
    InvImage.wf (Stage.left nodes.length) wellFounded_lt
  induction stage using hwf.induction with
  | _ stage ih =>
    refine Acc.intro stage fun next hstep => ?_
    have hnext : graph.Reached seeds next := h.tail hstep
    exact ih next (hstep.left_lt (hnext.sound.length_queued_le hnodes)) hnext

end Termination

section Runs

variable {graph : Propagation ν α ε} {seeds : List (ν × α)}

/-- Serving the nodes that wait for the node taken last goes through
stages. -/
theorem reached_of_serve_ok {taken : List ν} {value : α} {nodes : List ν}
    {progress served : Progress ν α}
    (h : graph.Reached seeds
      ⟨taken, nodes.map (·, value), progress.queue, progress.values⟩)
    (hserve : graph.serve value nodes progress = .ok served) :
    graph.Reached seeds (.ofProgress taken served) := by
  induction nodes generalizing progress with
  | nil =>
    obtain rfl : progress = served := by simpa [serve] using hserve
    exact h
  | cons node rest ih =>
    unfold serve at hserve
    split at hserve
    case isTrue hmem => exact ih (h.tail (.keep hmem)) hserve
    case isFalse hfresh =>
      split at hserve
      case h_1 => cases hserve
      case h_2 hderive => exact ih (h.tail (.skip hfresh hderive)) hserve
      case h_3 derived hderive =>
        refine ih ?_ hserve
        rw [Progress.queue_settle, Progress.values_settle]
        exact h.tail (.settle hfresh hderive)

/-- The next node that is to be served cannot be given a value, for the
reason `error`. -/
def Stage.Stuck (graph : Propagation ν α ε) (stage : Stage ν α)
    (error : ε) : Prop :=
  ∃ node value rest, stage.serving = (node, value) :: rest ∧
    node ∉ stage.values ∧ graph.derive node value = .error error

theorem exists_stuck_of_serve_error {taken : List ν} {value : α}
    {nodes : List ν} {progress : Progress ν α} {error : ε}
    (h : graph.Reached seeds
      ⟨taken, nodes.map (·, value), progress.queue, progress.values⟩)
    (hserve : graph.serve value nodes progress = .error error) :
    ∃ stage, graph.Reached seeds stage ∧ stage.Stuck graph error := by
  induction nodes generalizing progress with
  | nil => simp [serve] at hserve
  | cons node rest ih =>
    unfold serve at hserve
    split at hserve
    case isTrue hmem => exact ih (h.tail (.keep hmem)) hserve
    case isFalse hfresh =>
      split at hserve
      case h_1 hderive =>
        cases hserve
        exact ⟨_, h, node, value, _, rfl, hfresh, hderive⟩
      case h_2 hderive => exact ih (h.tail (.skip hfresh hderive)) hserve
      case h_3 derived hderive =>
        refine ih ?_ hserve
        rw [Progress.queue_settle, Progress.values_settle]
        exact h.tail (.settle hfresh hderive)

/-- What a propagation returns is read off the stage at which it stops. -/
def Stops (graph : Propagation ν α ε) (seeds : List (ν × α)) :
    Except ε (Std.ExtTreeMap ν α) → Prop
  | .ok values => ∃ taken, graph.Reached seeds ⟨taken, [], [], values⟩
  | .error error => ∃ stage, graph.Reached seeds stage ∧ stage.Stuck graph error

variable [Std.LawfulEqOrd ν]

theorem Drains.stops {queue taken : List ν} {values : Std.ExtTreeMap ν α}
    {result : Except ε (Std.ExtTreeMap ν α)}
    (hdrains : graph.Drains queue values result)
    (h : graph.Reached seeds ⟨taken, [], queue, values⟩) :
    graph.Stops seeds result := by
  induction hdrains generalizing taken with
  | done => exact ⟨taken, h⟩
  | @absent node rest values _ hnone _ _ =>
    have hmem : node ∈ values :=
      (h.sound.mem_values node).mpr (by simp [Stage.queued])
    simp [Std.ExtTreeMap.mem_iff_isSome_getElem?, hnone] at hmem
  | visit hvalue hserve hqueue hvalues _ ih =>
    subst hqueue hvalues
    exact ih (reached_of_serve_ok (h.tail (.take hvalue)) hserve)
  | fails hvalue hserve hqueue hvalues =>
    subst hqueue hvalues
    exact exists_stuck_of_serve_error (h.tail (.take hvalue)) hserve

end Runs

omit [Ord ν] [Std.TransOrd ν] in
/-- A graph whose edges lead to the nodes of a list is enclosed by them
and the seeds. -/
theorem encloses_of_dependents {graph : Propagation ν α ε}
    {seeds : List (ν × α)} {nodes : List ν}
    (h : ∀ node, ∀ dependent ∈ graph.dependents node, dependent ∈ nodes) :
    graph.Encloses seeds (nodes ++ seeds.map Prod.fst) where
  seeds _ hseed := List.mem_append_right _ (List.mem_map_of_mem hseed)
  dependents node _ dependent hdependent :=
    List.mem_append_left _ (h node dependent hdependent)

/-- A propagation over a finite graph ends, whatever its seeds, edges and
derivations are, and puts no node in its queue twice. The values that it returns
are exactly those that the seeds hand on: a seed has the first value that is given
to it, any other value comes from a seed along edges in finitely many steps, and
whoever waits for a node with a value has one or can have none from it. If it
fails, a node without a value that waits for such a node could not be given one
for the reason returned. -/
theorem propagate_exact [Std.LawfulEqOrd ν] (graph : Propagation ν α ε) (nodes : List ν)
    (hnodes : ∀ node, ∀ dependent ∈ graph.dependents node, dependent ∈ nodes)
    (size : Nat) (hsize : nodes.length ≤ size) (seeds : List (ν × α)) :
    (∀ stage, graph.Reached seeds stage → stage.queued.Nodup ∧
      Acc (fun next stage => graph.Step stage next) stage) ∧
    (∀ values, graph.propagate size seeds = .ok values →
      (∃ taken, graph.Reached seeds ⟨taken, [], [], values⟩) ∧
      (∀ node value, FirstFor seeds node value → values[node]? = some value) ∧
      (∀ node value, values[node]? = some value →
        Arrives graph seeds values node value) ∧
      (∀ node value, values[node]? = some value →
        ∀ dependent ∈ graph.dependents node,
          dependent ∈ values ∨ graph.derive dependent value = .ok none)) ∧
    (∀ error, graph.propagate size seeds = .error error →
      ∃ stage, graph.Reached seeds stage ∧
        (∀ node value, FirstFor seeds node value →
          stage.values[node]? = some value) ∧
        ∃ awaited node value, Arrives graph seeds stage.values awaited value ∧
          node ∈ graph.dependents awaited ∧ node ∉ stage.values ∧
          graph.derive node value = .error error) := by
  have hencloses : graph.Encloses seeds (nodes ++ seeds.map Prod.fst) :=
    encloses_of_dependents hnodes
  have hlength : (nodes ++ seeds.map Prod.fst).length ≤ size + seeds.length := by
    simpa using hsize
  have hstops : graph.Stops seeds (graph.propagate size seeds) :=
    (propagate_drains hencloses hlength).stops .refl
  refine ⟨fun stage h => ⟨h.sound.nodup, h.acc hencloses⟩, ?_, ?_⟩
  · intro values hok
    have hconsistent := propagate_ok hencloses hlength hok
    rw [hok] at hstops
    exact ⟨hstops, hconsistent.seeded, hconsistent.arrives,
      fun node value hvalue => hconsistent.served node value hvalue (by simp)⟩
  · intro error herror
    rw [herror] at hstops
    obtain ⟨stage, hreached, node, value, rest, hserving, hfresh, hderive⟩ := hstops
    obtain ⟨awaited, harrives, hedge⟩ :=
      hreached.sound.serving node value (by simp [hserving])
    exact ⟨stage, hreached, hreached.sound.seeded, awaited, node, value, harrives,
      hedge, hfresh, hderive⟩

/-- A graph with a cycle, an edge that is listed twice, a node without a value and
a node that fails if it is reached from a value above nine. -/
def detour : Propagation Nat Nat String where
  dependents
    | 0 => [1, 1, 2]
    | 1 => [0, 3]
    | 2 => [3, 4]
    | 3 => [1]
    | _ => []
  derive
    | 2, _ => .ok none
    | 3, value => if 9 < value then .error "too large" else .ok (some (value + 1))
    | _, value => .ok (some (value + 1))

theorem propagate_exact_detour :
    (∃ values, detour.propagate 5 [(0, 7), (0, 8)] = .ok values ∧
      values[0]? = some 7 ∧ Arrives detour [(0, 7), (0, 8)] values 3 9 ∧
      detour.derive 2 7 = .ok none) ∧
    ∃ stage, detour.Reached [(0, 9)] stage ∧ 3 ∉ stage.values ∧
      stage.queued.Nodup := by
  have hnodes : ∀ node, ∀ dependent ∈ detour.dependents node,
      dependent ∈ [0, 1, 2, 3, 4] := by
    intro node
    match node with
    | 0 | 1 | 2 | 3 => decide
    | _ + 4 => simp [detour]
  constructor
  · have hfind : (detour.propagate 5 [(0, 7), (0, 8)]).map
        (fun values => (values[2]?, values[3]?)) = .ok (none, some 9) := by
      decide +kernel
    cases hok : detour.propagate 5 [(0, 7), (0, 8)] with
    | error error =>
      rw [hok] at hfind
      cases hfind
    | ok values =>
      simp only [hok, Except.map, Except.ok.injEq, Prod.mk.injEq] at hfind
      obtain ⟨hskipped, hthree⟩ := hfind
      obtain ⟨_, hseeded, harrives, hserved⟩ :=
        (propagate_exact detour _ hnodes 5 (by decide) [(0, 7), (0, 8)]).2.1
          values hok
      have hzero := hseeded 0 7 ⟨[], _, rfl, by simp⟩
      refine ⟨values, rfl, hzero, harrives 3 9 hthree, ?_⟩
      rcases hserved 0 7 hzero 2 (by decide) with hmem | hnone
      · obtain ⟨value, hvalue⟩ := mem_iff_exists.mp hmem
        rw [hskipped] at hvalue
        cases hvalue
      · exact hnone
  · have herror : (detour.propagate 5 [(0, 9)]).map (fun _ => ()) =
        .error "too large" := by
      decide +kernel
    cases hfails : detour.propagate 5 [(0, 9)] with
    | ok values =>
      rw [hfails] at herror
      cases herror
    | error error =>
      have hexact := propagate_exact detour _ hnodes 5 (by decide) [(0, 9)]
      obtain ⟨stage, hreached, _, awaited, node, value, _, hedge, hfresh,
        hderive⟩ := hexact.2.2 error hfails
      have hnode : node = 3 := by
        match node with
        | 3 => rfl
        | 2 => simp [detour] at hderive
        | 0 | 1 | _ + 4 => simp [detour] at hderive
      subst hnode
      exact ⟨stage, hreached, hfresh, (hexact.1 stage hreached).1⟩

end EnumInline.Propagation
