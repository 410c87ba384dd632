import EnumInline.Proofs.Binding.Resolution
import EnumInline.Proofs.Propagation.Nearest

/-!
How many steps lie between a binding and its declaration. A name can come to a
module from several modules that export all their names; it then stands for a
declaration from which it takes the fewest steps.
-/

namespace EnumInline

namespace BindingFacts

variable (resolver : Resolver) (index : Enum.Index) (modules : List SourceModule)

/-- A binding stands for a declaration at the end of a chain of a number of
steps. -/
inductive ReachesIn : Nat → Binding → DeclarationKey → Prop where
  | declared {binding : Binding} {key : DeclarationKey}
      (hfact : IsFact resolver index modules binding (.declared key)) :
      ReachesIn 0 binding key
  | awaits {hops : Nat} {binding target : Binding} {key : DeclarationKey}
      (hawaits : Awaits resolver index modules binding target)
      (hreaches : ReachesIn hops target key) :
      ReachesIn (hops + 1) binding key

end BindingFacts

namespace BindingGraph

open BindingFacts Propagation

variable {resolver : Resolver} {index : Enum.Index} {modules : List SourceModule}
  {binding : Binding} {key : DeclarationKey} {hops : Nat}

theorem isTotal_propagation (facts : BindingFacts) : (propagation facts).IsTotal :=
  fun _ declaration => ⟨declaration, rfl⟩

theorem reachesIn_of_carries
    (h : (propagation (ofModules resolver index modules)).Carries
      (seeds (ofModules resolver index modules)) hops binding key) :
    ReachesIn resolver index modules hops binding key := by
  induction h with
  | seed hseed => exact .declared (mem_seeds.mp hseed.mem)
  | hop _ hedge hderive ih =>
    cases hderive
    exact .awaits (mem_dependents.mp hedge) ih

theorem walk_of_reachesIn (h : ReachesIn resolver index modules hops binding key) :
    (propagation (ofModules resolver index modules)).Walk
      (seeds (ofModules resolver index modules)) hops binding := by
  induction h with
  | declared hfact => exact .seed (mem_seeds.mpr hfact)
  | awaits hawaits _ ih => exact .hop ih (mem_dependents.mpr hawaits)

/-- No chain from a binding is shorter than one to the declaration that is found
for it. -/
theorem exists_shortest_chain
    (h : (build resolver index modules).resolved[binding]? = some key) :
    ∃ hops, ReachesIn resolver index modules hops binding key ∧
      ∀ others other, ReachesIn resolver index modules others binding other →
        hops ≤ others := by
  have hencloses : (propagation (ofModules resolver index modules)).Encloses
      (seeds (ofModules resolver index modules))
      (candidates (ofModules resolver index modules)) :=
    candidates_enclose
  obtain ⟨values, hvalues, -, hnearest⟩ :=
    propagate_nearest hencloses length_candidates_le (isTotal_propagation _)
  obtain rfl := Except.ok.inj (propagate_eq_resolved.symm.trans hvalues)
  obtain ⟨hops, hcarries, hleast⟩ := hnearest binding key h
  exact ⟨hops, reachesIn_of_carries hcarries,
    fun others other hother => hleast others (walk_of_reachesIn hother)⟩

/-- Values come on shortest ways. Where every node takes the value that is handed
to it, a propagation over a finite graph succeeds and gives a value to the nodes to
which a walk from a seed leads, and to no others. The value has come from the first
value of a seed on a walk to the node, and no walk to it is shorter. So a binding
that can stand for several declarations gets one at the end of a shortest chain. -/
theorem resolved_shortest :
    (∀ (ν α ε : Type) [Ord ν] [Std.TransOrd ν] [Std.LawfulEqOrd ν]
      (graph : Propagation ν α ε) (nodes : List ν) (size : Nat) (seeds : List (ν × α)),
      (∀ node, ∀ dependent ∈ graph.dependents node, dependent ∈ nodes) →
      nodes.length ≤ size → graph.IsTotal →
      ∃ values, graph.propagate size seeds = .ok values ∧
        (∀ node, node ∈ values ↔ ∃ hops, graph.Walk seeds hops node) ∧
        ∀ node value, values[node]? = some value →
          ∃ hops, graph.Carries seeds hops node value ∧
            ∀ others, graph.Walk seeds others node → hops ≤ others) ∧
    ∀ resolver index modules binding key,
      (build resolver index modules).resolved[binding]? = some key →
      ∃ hops, ReachesIn resolver index modules hops binding key ∧
        ∀ others other, ReachesIn resolver index modules others binding other →
          hops ≤ others := by
  refine ⟨?_, fun _ _ _ _ _ => exists_shortest_chain⟩
  intro ν α ε _ _ _ graph nodes size seeds hnodes hsize htotal
  have hlength : (nodes ++ seeds.map Prod.fst).length ≤ size + seeds.length := by
    simpa using hsize
  exact propagate_nearest (encloses_of_dependents hnodes) hlength htotal

/-- A graph in which the last node is three hops from one seed and one from another. -/
def relay : Propagation Nat Nat Empty where
  dependents
    | 0 => [1, 0]
    | 1 => [2]
    | 2 => [3]
    | 4 => [3, 3]
    | _ => []
  derive _ value := .ok (some (value + 1))

/-- A module that exports all names of two others. The declaration that comes through
the first of them is one step farther away. -/
def hub : List SourceModule :=
  [⟨"/hub.ts", "/hub", [], [], [.star "./deep", .star "./near"]⟩,
    ⟨"/deep.ts", "/deep", [], [], [.star "./core"]⟩,
    ⟨"/core.ts", "/core", [⟨"Size", true, []⟩], [], [.declared "Size"]⟩,
    ⟨"/near.ts", "/near", [⟨"Size", true, []⟩], [], [.declared "Size"]⟩]

def hubResolver : Resolver := ⟨.ofList (hub.map (·.id)), [], none⟩

theorem resolved_shortest_hub :
    (∃ values, relay.propagate 4 [(0, 10), (4, 20)] = .ok values ∧
      values[3]? = some 21 ∧
      ∃ hops ≤ 1, relay.Carries [(0, 10), (4, 20)] hops 3 21) ∧
    (build hubResolver (.ofModules hub) hub).resolved[Binding.exported ⟨"/hub", "Size"⟩]? =
      some ⟨"/near", "Size"⟩ ∧
    ∃ hops ≤ 1, ReachesIn hubResolver (.ofModules hub) hub hops
      (.exported ⟨"/hub", "Size"⟩) ⟨"/near", "Size"⟩ := by
  constructor
  · have hnodes : ∀ node, ∀ dependent ∈ relay.dependents node, dependent ∈ [0, 1, 2, 3] := by
      intro node
      match node with
      | 0 | 1 | 2 | 4 => decide
      | 3 | _ + 5 => simp [relay]
    obtain ⟨values, hvalues, -, hnearest⟩ :=
      resolved_shortest.1 Nat Nat Empty relay [0, 1, 2, 3] 4 [(0, 10), (4, 20)] hnodes
        (by decide) fun _ value => ⟨value + 1, rfl⟩
    have hfind : (relay.propagate 4 [(0, 10), (4, 20)]).map (·[3]?) = .ok (some 21) := by
      decide +kernel
    have hthree : values[3]? = some 21 := by
      rw [hvalues] at hfind
      exact Except.ok.inj hfind
    obtain ⟨hops, hcarries, hleast⟩ := hnearest 3 21 hthree
    have hwalk : relay.Walk [(0, 10), (4, 20)] 1 3 :=
      .hop (.seed (show (4, 20) ∈ [(0, 10), (4, 20)] by decide)) (by decide)
    exact ⟨values, hvalues, hthree, hops, hleast 1 hwalk, hcarries⟩
  · have hresolved : (build hubResolver (.ofModules hub) hub).resolved[
        Binding.exported ⟨"/hub", "Size"⟩]? = some ⟨"/near", "Size"⟩ := by
      decide +kernel
    obtain ⟨hops, hreaches, hleast⟩ := resolved_shortest.2 _ _ _ _ _ hresolved
    have hnear : ReachesIn hubResolver (.ofModules hub) hub 0
        (.exported ⟨"/near", "Size"⟩) ⟨"/near", "Size"⟩ :=
      .declared (getElem?_own.mp (by decide +kernel))
    have hstar : Awaits hubResolver (.ofModules hub) hub
        (.exported ⟨"/hub", "Size"⟩) (.exported ⟨"/near", "Size"⟩) :=
      mem_dependents.mp (by decide +kernel)
    exact ⟨hresolved, hops, hleast 1 _ (.awaits hstar hnear), hreaches⟩

end BindingGraph

end EnumInline
