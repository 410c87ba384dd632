import EnumInline.Binding.Facts
import EnumInline.Propagation

/-!
Following bindings to the declarations they stand for. A declaration is handed on to the bindings that
follow it, through chains of any length; a binding on a cycle, or at the end of a chain that leads
nowhere, gets none.
-/

namespace EnumInline

/-- The bindings of a project that stand for a declaration, and the names that its modules import. -/
structure BindingGraph where
  resolved : Std.ExtTreeMap Binding DeclarationKey
  facts : BindingFacts

namespace BindingGraph

abbrev Followers := Std.ExtTreeMap Binding (List Binding)

private def addFollower (followers : Followers) (fact : Binding × BindingFact) : Followers :=
  match fact.2 with
  | .declared _ => followers
  | .follows target => followers.insert target (followers.getD target [] ++ [fact.1])

/-- For each binding, the bindings whose facts follow it, in order. -/
def followersOf (facts : BindingFacts) : Followers :=
  facts.own.toList.foldl addFollower ∅

abbrev StarImporters := Std.ExtTreeMap String (List String)

/-- For each module, the modules that export all its names, in order. -/
def starImportersOf (facts : BindingFacts) : StarImporters :=
  facts.stars.toList.foldl
    (fun importers star =>
      importers.insert star.source (importers.getD star.source [] ++ [star.importer])) ∅

/-- The exports to which a name goes on through `export *`. A default export does not go on, and a name
that a module exports itself is not replaced. -/
def forwarded (facts : BindingFacts) (importers : StarImporters) : Binding → List Binding
  | .imported _ => []
  | .exported key =>
      if key.name = "default" then []
      else
        (importers.getD key.module []).filterMap fun importer =>
          let target : DeclarationKey := ⟨importer, key.name⟩
          if facts.isExplicit target then none else some (.exported target)

def propagation (facts : BindingFacts) : Propagation Binding DeclarationKey Empty :=
  let followers := followersOf facts
  let importers := starImportersOf facts
  { dependents := fun binding =>
      followers.getD binding [] ++ forwarded facts importers binding
    derive := fun _ declaration => .ok (some declaration) }

def seeds (facts : BindingFacts) : List (Binding × DeclarationKey) :=
  facts.own.toList.filterMap fun (binding, fact) =>
    match fact with
    | .declared key => some (binding, key)
    | .follows _ => none

/-- A bound on the number of bindings that can get a declaration: those with a fact, and the names of
those in each module that exports all names of another. -/
def size (facts : BindingFacts) : Nat := facts.own.size * (1 + facts.stars.size)

/-- Follows the bindings of the modules of a project. -/
def build (resolver : Resolver) (index : Enum.Index) (modules : List SourceModule) : BindingGraph :=
  let facts := BindingFacts.ofModules resolver index modules
  match (propagation facts).propagate (size facts) (seeds facts) with
  | .ok resolved => ⟨resolved, facts⟩

def importTarget? (graph : BindingGraph) (module localName : String) : Option DeclarationKey :=
  graph.resolved[Binding.imported ⟨module, localName⟩]?

def exportTarget? (graph : BindingGraph) (module name : String) : Option DeclarationKey :=
  graph.resolved[Binding.exported ⟨module, name⟩]?

/-- Whether `module` imports a name, whether or not it leads anywhere. -/
def hasImport (graph : BindingGraph) (module localName : String) : Bool :=
  graph.facts.own.contains (.imported ⟨module, localName⟩)

/-- The imports of a module that lead to a declaration, in the order of their names. -/
def importsOf (graph : BindingGraph) (module : String) : List (String × DeclarationKey) :=
  graph.resolved.toList.filterMap fun (binding, target) =>
    match binding with
    | .imported key => if key.module = module then some (key.name, target) else none
    | .exported _ => none

end BindingGraph

end EnumInline
