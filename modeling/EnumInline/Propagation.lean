import Std.Data.ExtTreeMap

/-!
Carrying values along the edges of a graph, from nodes whose value is known to the nodes that wait for
them. Each node gets at most one value, the first that arrives; nodes are visited in the order in which
they get theirs.
-/

namespace EnumInline

/-- A graph whose nodes wait for the values of other nodes. -/
structure Propagation (ν α ε : Type) where
  /-- The nodes that wait for a node, in the order in which they are served. -/
  dependents : ν → List ν
  /-- The value of a node from the value it waited for. The node may stay without one. -/
  derive : ν → α → Except ε (Option α)

namespace Propagation

variable {ν α ε : Type} [Ord ν] [Std.TransOrd ν]

/-- The values found so far, and the nodes that are still to be visited: those of `front`, then those of
`back` from its end. -/
structure Progress (ν α : Type) [Ord ν] [Std.TransOrd ν] where
  values : Std.ExtTreeMap ν α
  front : List ν
  back : List ν

namespace Progress

/-- Gives a node its value and puts it last in the queue. -/
def settle (progress : Progress ν α) (node : ν) (value : α) : Progress ν α :=
  { progress with
    values := progress.values.insert node value, back := node :: progress.back }

/-- A node that is given several values keeps the first. -/
def ofSeeds (seeds : List (ν × α)) : Progress ν α :=
  seeds.foldl
    (fun progress (node, value) =>
      if node ∈ progress.values then progress else progress.settle node value)
    ⟨∅, [], []⟩

end Progress

/-- Hands a value to the nodes that wait for it. -/
def serve (graph : Propagation ν α ε) (value : α) :
    List ν → Progress ν α → Except ε (Progress ν α)
  | [], progress => .ok progress
  | node :: rest, progress =>
      if node ∈ progress.values then serve graph value rest progress
      else
        match graph.derive node value with
        | .error error => .error error
        | .ok none => serve graph value rest progress
        | .ok (some derived) => serve graph value rest (progress.settle node derived)

/-- Visits the nodes of the queue. Each visit and each refill of `front` takes one unit of `fuel`. -/
def run (graph : Propagation ν α ε) : (fuel : Nat) → Progress ν α → Except ε (Progress ν α)
  | 0, progress => .ok progress
  | fuel + 1, ⟨values, [], back⟩ =>
      if back.isEmpty then .ok ⟨values, [], []⟩ else run graph fuel ⟨values, back.reverse, []⟩
  | fuel + 1, ⟨values, node :: front, back⟩ =>
      match values[node]? with
      | none => run graph fuel ⟨values, front, back⟩
      | some value =>
          match graph.serve value (graph.dependents node) ⟨values, front, back⟩ with
          | .error error => .error error
          | .ok progress => run graph fuel progress

/-- The values of all nodes that a seed reaches. At most `size` nodes besides the seeds get a value, and
each refill of the queue is followed by a visit, so that the fuel suffices. -/
def propagate (graph : Propagation ν α ε) (size : Nat) (seeds : List (ν × α)) :
    Except ε (Std.ExtTreeMap ν α) :=
  (graph.run (2 * (size + seeds.length) + 2) (Progress.ofSeeds seeds)).map Progress.values

end Propagation

end EnumInline
