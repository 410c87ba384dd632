import EnumInline.Binding.Facts
import EnumInline.Proofs.KeyedList

/-!
What the bindings of a project stand for, said without an algorithm: from what each form of
statement states of a binding, of which the last counts. A binding stands for a declaration if its
fact says so, or if it awaits a binding that stands for the declaration. Chains may have any length
and may run in circles.
-/

namespace EnumInline

namespace Enum.Index

/-- The declarations of a module have keys of its own. -/
theorem module_of_mem_entriesOf {module : SourceModule} :
    ∀ entry ∈ entriesOf module, entry.1.module = module.id := by
  intro entry hentry
  obtain ⟨declaration, _, rfl⟩ := List.mem_map.mp hentry
  rfl

end Enum.Index

namespace BindingFacts

open KeyedList

variable (resolver : Resolver) (index : Enum.Index) (modules : List SourceModule)

/-- A statement as far as it is about one name: an export, or one name of an import. -/
inductive Clause where
  | exporting (statement : ExportStatement)
  | importing (source : String) (name : ImportedName)

/-- What a clause of a module states of a binding. A name that is exported without a source, also
as the default export, is that of a declaration of the module if it has one, and else one that the
module imports. `export *` is no clause about a binding. -/
inductive States (module : String) : Clause → Binding → BindingFact → Prop where
  | declaration {name : String} :
      States module (.exporting (.declared name)) (.exported ⟨module, name⟩)
        (.declared ⟨module, name⟩)
  | ofDeclaration {localName exported : String}
      (hdeclared : (⟨module, localName⟩ : DeclarationKey) ∈ index) :
      States module (.exporting (.ofLocal localName exported)) (.exported ⟨module, exported⟩)
        (.declared ⟨module, localName⟩)
  | ofImport {localName exported : String}
      (hdeclared : (⟨module, localName⟩ : DeclarationKey) ∉ index) :
      States module (.exporting (.ofLocal localName exported)) (.exported ⟨module, exported⟩)
        (.follows (.imported ⟨module, localName⟩))
  | reexport {source imported exported : String} :
      States module (.exporting (.reexport source imported exported))
        (.exported ⟨module, exported⟩)
        (.follows (.exported ⟨resolver.resolve source module, imported⟩))
  | importedName {source : String} {name : ImportedName} :
      States module (.importing source name) (.imported ⟨module, name.localName⟩)
        (.follows (.exported ⟨resolver.resolve source module, name.imported⟩))

/-- The clauses of a module. Exports and imports are about different bindings, so that it does not
matter which of them count first. -/
def clausesOf (module : SourceModule) : List Clause :=
  module.exports.map Clause.exporting ++
    module.imports.flatMap fun statement => statement.names.map (Clause.importing statement.source)

/-- The clauses of a project in their order, each with the module that it stands in. -/
def clauses : List (String × Clause) :=
  modules.flatMap fun module => (clausesOf module).map (module.id, ·)

/-- The fact of a binding is the last that a clause states of it. -/
def IsFact (binding : Binding) (fact : BindingFact) : Prop :=
  ∃ earlier module clause later,
    clauses modules = earlier ++ (module, clause) :: later ∧
      States resolver index module clause binding fact ∧
      ∀ other ∈ later, ∀ stated,
        ¬ States resolver index other.1 other.2 binding stated

/-- A module `importer` exports all names of `source`. -/
def IsStar (importer source : String) : Prop :=
  ∃ module ∈ modules, module.id = importer ∧
    ∃ specifier, .star specifier ∈ module.exports ∧
      resolver.resolve specifier importer = source

/-- A binding awaits the one that its fact follows. An exported name without a
fact awaits that name in each module of which all names are exported, unless it
is the default export. -/
inductive Awaits : Binding → Binding → Prop where
  | fact {binding target : Binding}
      (hfact : IsFact resolver index modules binding (.follows target)) :
      Awaits binding target
  | star {importer source name : String}
      (hstar : IsStar resolver modules importer source)
      (hname : name ≠ "default") (hfact : ∀ fact,
          ¬ IsFact resolver index modules (.exported ⟨importer, name⟩) fact) :
      Awaits (.exported ⟨importer, name⟩) (.exported ⟨source, name⟩)

/-- A binding stands for a declaration at the end of a chain of bindings of
which each awaits the next. -/
inductive Reaches : Binding → DeclarationKey → Prop where
  | declared {binding : Binding} {key : DeclarationKey}
      (hfact : IsFact resolver index modules binding (.declared key)) :
      Reaches binding key
  | awaits {binding target : Binding} {key : DeclarationKey}
      (hawaits : Awaits resolver index modules binding target)
      (hreaches : Reaches target key) :
      Reaches binding key

variable {resolver index modules}

/-- The facts that a module states are about bindings of its own. -/
theorem module_of_mem_ofModule {module : SourceModule} :
    ∀ entry ∈ ofModule resolver index module,
      entry.1.key.module = module.id := by
  intro entry hentry
  rcases List.mem_append.mp hentry with hexport | himport
  · obtain ⟨statement, _, hfact⟩ := List.mem_filterMap.mp hexport
    cases statement with
    | declared name =>
      cases hfact
      rfl
    | ofLocal localName exported =>
      cases hfact
      rfl
    | reexport source imported exported =>
      cases hfact
      rfl
    | star source => cases hfact
  · obtain ⟨statement, _, hnames⟩ := List.mem_flatMap.mp himport
    obtain ⟨name, _, rfl⟩ := List.mem_map.mp hnames
    rfl

/-- What a clause states, as an entry of a table of facts. -/
def stated? (resolver : Resolver) (index : Enum.Index) :
    String × Clause → Option (Binding × BindingFact)
  | (module, .exporting statement) => ofExport? resolver index module statement
  | (module, .importing source name) =>
      some (.imported ⟨module, name.localName⟩,
        .follows (.exported ⟨resolver.resolve source module, name.imported⟩))

theorem states_iff {module : String} {clause : Clause} {binding : Binding}
    {fact : BindingFact} :
    States resolver index module clause binding fact ↔
      stated? resolver index (module, clause) = some (binding, fact) := by
  constructor
  · intro h
    cases h with
    | ofDeclaration hdeclared => simp [stated?, ofExport?, hdeclared]
    | ofImport hdeclared => simp [stated?, ofExport?, hdeclared]
    | declaration | reexport | importedName => rfl
  · intro h
    match clause with
    | .exporting (.declared name) =>
      cases h
      exact .declaration
    | .exporting (.ofLocal localName exported) =>
      by_cases hdeclared : (⟨module, localName⟩ : DeclarationKey) ∈ index
      · simp only [stated?, ofExport?, hdeclared, if_true] at h
        cases h
        exact .ofDeclaration hdeclared
      · simp only [stated?, ofExport?, hdeclared, if_false] at h
        cases h
        exact .ofImport hdeclared
    | .exporting (.reexport source imported exported) =>
      cases h
      exact .reexport
    | .exporting (.star source) => cases h
    | .importing source name =>
      cases h
      exact .importedName

theorem filterMap_clausesOf {module : SourceModule} :
    ((clausesOf module).map (module.id, ·)).filterMap (stated? resolver index) =
      ofModule resolver index module := by
  have hexports : (stated? resolver index ∘ (module.id, ·)) ∘ Clause.exporting =
      ofExport? resolver index module.id := rfl
  have himport (statement : ImportStatement) :
      statement.names.filterMap
          ((stated? resolver index ∘ (module.id, ·)) ∘ Clause.importing statement.source) =
        ofImport resolver module.id statement := by
    rw [ofImport, ← List.filterMap_eq_map]
    rfl
  simp only [clausesOf, ofModule, List.filterMap_map, List.filterMap_append,
    List.filterMap_flatMap, hexports, himport]

theorem filterMap_clauses :
    (clauses modules).filterMap (stated? resolver index) =
      modules.flatMap (ofModule resolver index) := by
  simp only [clauses, List.filterMap_flatMap, filterMap_clausesOf]

theorem mem_clauses_exporting {id : String} {statement : ExportStatement} :
    (id, .exporting statement) ∈ clauses modules ↔
      ∃ module ∈ modules, module.id = id ∧ statement ∈ module.exports := by
  simp only [clauses, List.mem_flatMap, List.mem_map, Prod.mk.injEq]
  constructor
  · rintro ⟨module, hmodule, clause, hclause, hid, rfl⟩
    exact ⟨module, hmodule, hid, by simpa [clausesOf] using hclause⟩
  · rintro ⟨module, hmodule, hid, hstatement⟩
    exact ⟨module, hmodule, _, by simpa [clausesOf] using hstatement, hid, rfl⟩

theorem isFact_iff_lastFor {binding : Binding} {fact : BindingFact} :
    IsFact resolver index modules binding fact ↔
      LastFor (modules.flatMap (ofModule resolver index)) binding fact := by
  rw [← filterMap_clauses, lastFor_filterMap]
  simp only [IsFact, states_iff]
  constructor
  · rintro ⟨earlier, module, clause, later, h⟩
    exact ⟨earlier, (module, clause), later, h⟩
  · rintro ⟨earlier, ⟨module, clause⟩, later, h⟩
    exact ⟨earlier, module, clause, later, h⟩

theorem IsFact.exists_module {binding : Binding} {fact : BindingFact}
    (h : IsFact resolver index modules binding fact) :
    ∃ module ∈ modules, (binding, fact) ∈ ofModule resolver index module :=
  List.mem_flatMap.mp (isFact_iff_lastFor.mp h).mem

theorem getElem?_own {binding : Binding} {fact : BindingFact} :
    (ofModules resolver index modules).own[binding]? = some fact ↔
      IsFact resolver index modules binding fact :=
  getElem?_foldl_insert.trans isFact_iff_lastFor.symm

theorem IsFact.unique {binding : Binding} {fact other : BindingFact}
    (h : IsFact resolver index modules binding fact)
    (hother : IsFact resolver index modules binding other) : fact = other :=
  Option.some.inj ((getElem?_own.mpr h).symm.trans (getElem?_own.mpr hother))

/-- A binding whose fact follows another stands for nothing else. -/
theorem reaches_iff_of_follows {binding target : Binding}
    (hfact : IsFact resolver index modules binding (.follows target))
    {key : DeclarationKey} :
    Reaches resolver index modules binding key ↔
      Reaches resolver index modules target key := by
  constructor
  · intro h
    cases h with
    | declared hdeclared => cases hfact.unique hdeclared
    | awaits hawaits hreaches =>
      cases hawaits with
      | fact hother =>
        cases hfact.unique hother
        exact hreaches
      | star _ _ hnone => exact absurd hfact (hnone _)
  · exact .awaits (.fact hfact)

theorem mem_own {binding : Binding} :
    binding ∈ (ofModules resolver index modules).own ↔
      ∃ fact, IsFact resolver index modules binding fact := by
  rw [mem_iff_exists]
  simp only [getElem?_own]

private theorem mem_foldl_insert {stars : List StarExport}
    {set : Std.ExtTreeSet StarExport} {star : StarExport} :
    star ∈ stars.foldl (fun stars star => stars.insert star) set ↔
      star ∈ set ∨ star ∈ stars := by
  induction stars generalizing set with
  | nil => simp
  | cons first rest ih =>
    rw [List.foldl_cons, ih, Std.ExtTreeSet.mem_insert]
    simp only [Std.compare_eq_iff_eq, List.mem_cons]
    constructor
    · rintro ((rfl | h) | h)
      · exact Or.inr (Or.inl rfl)
      · exact Or.inl h
      · exact Or.inr (Or.inr h)
    · rintro (h | rfl | h)
      · exact Or.inl (Or.inr h)
      · exact Or.inl (Or.inl rfl)
      · exact Or.inr h

theorem mem_stars {source importer : String} :
    ⟨source, importer⟩ ∈ (ofModules resolver index modules).stars ↔
      IsStar resolver modules importer source := by
  have hstars : (⟨source, importer⟩ : StarExport) ∈
      (ofModules resolver index modules).stars ↔
      ⟨source, importer⟩ ∈ modules.flatMap (starsOf resolver) := by
    simp [ofModules, mem_foldl_insert]
  rw [hstars, List.mem_flatMap]
  constructor
  · rintro ⟨module, hmodule, hstar⟩
    obtain ⟨statement, hstatement, hstar⟩ := List.mem_filterMap.mp hstar
    cases statement with
    | star specifier =>
      cases hstar
      exact ⟨module, hmodule, rfl, specifier, hstatement, rfl⟩
    | _ => cases hstar
  · rintro ⟨module, hmodule, rfl, specifier, hstatement, rfl⟩
    exact ⟨module, hmodule,
      List.mem_filterMap.mpr ⟨.star specifier, hstatement, rfl⟩⟩

/-- A chain that never comes to a declared binding stands for nothing. Cycles
and chains that lead out of the project are such chains. -/
theorem not_reaches_of_closed {chain : Binding → Prop}
    (hdeclared : ∀ binding key,
        chain binding → ¬ IsFact resolver index modules binding (.declared key))
    (hawaits : ∀ binding target,
        chain binding → Awaits resolver index modules binding target →
          chain target) {binding : Binding} {key : DeclarationKey}
    (hchain : chain binding) :
    ¬ Reaches resolver index modules binding key := by
  intro h
  induction h with
  | declared hfact => exact hdeclared _ _ hchain hfact
  | awaits hstep _ ih => exact ih (hawaits _ _ hchain hstep)

end BindingFacts

end EnumInline
