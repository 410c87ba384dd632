import EnumInline.Enum.Index
import EnumInline.Resolution.Resolver
import Std.Data.ExtTreeSet

/-!
What the statements of a project say about its bindings. Each binding has at most one fact of its own,
the last that is stated; `export *` speaks of no name in particular.
-/

namespace EnumInline

/-- What is stated of a binding: that it is a declaration, or that it stands for what another one stands
for. -/
inductive BindingFact where
  | declared (key : DeclarationKey)
  | follows (binding : Binding)
  deriving DecidableEq, Repr

/-- `importer` exports whatever `source` exports. -/
structure StarExport where
  source : String
  importer : String
  deriving DecidableEq, Repr

namespace StarExport

instance : Ord StarExport where
  compare := compareLex (compareOn source) (compareOn importer)

instance : Std.TransOrd StarExport :=
  inferInstanceAs (Std.TransCmp (compareLex (compareOn source) (compareOn importer)))

instance : Std.LawfulEqOrd StarExport where
  eq_of_compare {a b} h := by
    have h : (compareLex (compareOn source) (compareOn importer)) a b = .eq := h
    obtain ⟨sameSource, sameImporter⟩ := compareLex_eq_eq.1 h
    cases a
    cases b
    simp_all [compareOn]

end StarExport

structure BindingFacts where
  own : Std.ExtTreeMap Binding BindingFact
  stars : Std.ExtTreeSet StarExport

namespace BindingFacts

def ofExport? (resolver : Resolver) (index : Enum.Index) (module : String) :
    ExportStatement → Option (Binding × BindingFact)
  | .declared name => some (.exported ⟨module, name⟩, .declared ⟨module, name⟩)
  | .ofLocal localName exported =>
      let key : DeclarationKey := ⟨module, localName⟩
      some (.exported ⟨module, exported⟩,
        if key ∈ index then .declared key else .follows (.imported key))
  | .reexport source imported exported =>
      some (.exported ⟨module, exported⟩,
        .follows (.exported ⟨resolver.resolve source module, imported⟩))
  | .star _ => none

def ofImport (resolver : Resolver) (module : String) (statement : ImportStatement) :
    List (Binding × BindingFact) :=
  statement.names.map fun name =>
    (.imported ⟨module, name.localName⟩,
      .follows (.exported ⟨resolver.resolve statement.source module, name.imported⟩))

/-- The facts that a module states, in the order in which they count. -/
def ofModule (resolver : Resolver) (index : Enum.Index) (module : SourceModule) :
    List (Binding × BindingFact) :=
  module.exports.filterMap (ofExport? resolver index module.id) ++
    module.imports.flatMap (ofImport resolver module.id)

def starOf? (resolver : Resolver) (module : String) : ExportStatement → Option StarExport
  | .star source => some ⟨resolver.resolve source module, module⟩
  | _ => none

def starsOf (resolver : Resolver) (module : SourceModule) : List StarExport :=
  module.exports.filterMap (starOf? resolver module.id)

def ofModules (resolver : Resolver) (index : Enum.Index) (modules : List SourceModule) :
    BindingFacts :=
  ⟨(modules.flatMap (ofModule resolver index)).foldl
      (fun facts (binding, fact) => facts.insert binding fact) ∅,
    (modules.flatMap (starsOf resolver)).foldl (fun stars star => stars.insert star) ∅⟩

/-- Whether an export has a fact of its own, which hides the names that `export *` brings. -/
def isExplicit (facts : BindingFacts) (key : DeclarationKey) : Bool :=
  facts.own.contains (.exported key)

end BindingFacts

end EnumInline
