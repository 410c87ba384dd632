import EnumInline.Proofs.Analysis.Order
import EnumInline.Proofs.Enum.Inlining

/-!
The analysis of a project some of whose references have become literals. The
modules export, import and declare what they did, so the bindings stay; the values
agree with those before; and a table holds no more of a value than its text, so the
table is the same.
-/

namespace EnumInline

open Enum (Values Index Declaration)

structure SourceModule.Inlined (values : Values) (module after : SourceModule) : Prop where
  path : after.path = module.path
  id : after.id = module.id
  imports : after.imports = module.imports
  exports : after.exports = module.exports
  enums : List.Forall₂
    (fun declaration => Declaration.Inlined values ⟨module.id, declaration.name⟩ declaration)
    module.enums after.enums

variable {values values' : Values} {modules after : List SourceModule}

theorem Enum.Index.Inlined.insert {index later : Index}
    (h : Index.Inlined values index later) {key : DeclarationKey}
    {declaration inlined : Declaration}
    (hdeclaration : Declaration.Inlined values key declaration inlined) :
    Index.Inlined values (index.insert key declaration) (later.insert key inlined) := by
  intro other
  rw [Std.ExtTreeMap.getElem?_insert, Std.ExtTreeMap.getElem?_insert]
  by_cases hkey : key = other
  · subst hkey
    simpa using hdeclaration
  · simpa [hkey] using h other

theorem SourceModule.Inlined.entriesOf {module later : SourceModule}
    (h : module.Inlined values later) :
    List.Forall₂ (fun entry other : DeclarationKey × Declaration => other.1 = entry.1 ∧
      Declaration.Inlined values entry.1 entry.2 other.2)
      (Index.entriesOf module) (Index.entriesOf later) := by
  unfold Index.entriesOf
  rw [h.id, List.forall₂_map_left_iff, List.forall₂_map_right_iff]
  refine h.enums.imp fun declaration inlined hdeclaration => ⟨?_, hdeclaration⟩
  rw [hdeclaration.name]

section Links

variable (h : List.Forall₂ (SourceModule.Inlined values) modules after)

include h

theorem Enum.Index.ofModules_inlined :
    Index.Inlined values (.ofModules modules) (.ofModules after) := by
  have hentries := List.rel_flatMap h fun _ _ hmodule => hmodule.entriesOf
  refine List.rel_foldl (fun index later hindex entry other hentry => ?_) (fun key => by simp)
    hentries
  obtain ⟨key, declaration⟩ := entry
  obtain ⟨key', inlined⟩ := other
  obtain ⟨rfl, hdeclaration⟩ := hentry
  exact hindex.insert hdeclaration

theorem Project.resolverOf_inlined (aliases : Aliases) :
    resolverOf aliases modules = resolverOf aliases after := by
  unfold resolverOf
  rw [map_eq_of_forall₂ h fun _ _ hmodule => hmodule.id.symm]

/-- Exports ask which enums are declared, not how. -/
theorem BindingGraph.build_inlined (resolver : Resolver) :
    build resolver (.ofModules modules) modules =
      build resolver (.ofModules after) after := by
  have hindex := Enum.Index.ofModules_inlined h
  have hexport (module : String) : BindingFacts.ofExport? resolver (.ofModules modules) module =
      BindingFacts.ofExport? resolver (.ofModules after) module := by
    funext statement
    cases statement with
    | ofLocal localName exported => simp only [BindingFacts.ofExport?, hindex.mem_iff]
    | _ => rfl
  have hfacts : BindingFacts.ofModules resolver (.ofModules modules) modules =
      BindingFacts.ofModules resolver (.ofModules after) after := by
    unfold BindingFacts.ofModules
    rw [flatMap_eq_of_forall₂ h (g := BindingFacts.ofModule resolver (.ofModules after)),
      flatMap_eq_of_forall₂ h (g := BindingFacts.starsOf resolver)]
    · intro module later hmodule
      simp only [BindingFacts.starsOf, hmodule.exports, hmodule.id]
    · intro module later hmodule
      simp only [BindingFacts.ofModule, hmodule.exports, hmodule.imports, hmodule.id, hexport]
  unfold build
  rw [hfacts]

end Links

section Table

variable (hagree : ∀ key : MemberKey,
  Option.Rel MemberValue.Agrees values[key]? values'[key]?)

include hagree

theorem Enum.Values.membersOf_inlined {key : DeclarationKey}
    {declaration inlined : Declaration}
    (h : Declaration.Inlined values key declaration inlined) :
    List.Forall₂ (fun entry other : String × MemberValue =>
        entry.1 = other.1 ∧ entry.2.text = other.2.text)
      (values.membersOf key declaration) (values'.membersOf key inlined) := by
  refine List.rel_filterMap (fun member later hmember => ?_) h.members
  rw [hmember.name]
  exact rel_option_map (hagree ⟨key, member.name⟩) fun _ _ hvalue => ⟨rfl, hvalue.text.symm⟩

theorem ReplacementTable.written_inlined {index later : Index}
    (h : Index.Inlined values index later) :
    written index values = written later values' := by
  funext known
  unfold written
  cases hindex : index[known.2]? with
  | none =>
    cases hlater : later[known.2]? with
    | none => rfl
    | some inlined =>
      obtain ⟨_, hsome, -⟩ := exists_left_of_rel (h known.2) hlater
      rw [hindex] at hsome
      cases hsome
  | some declaration =>
    obtain ⟨inlined, hlater, hinlined⟩ := exists_right_of_rel (h known.2) hindex
    rw [hlater]
    have hmembers := Values.membersOf_inlined hagree hinlined
    refine map_eq_of_forall₂ (List.rel_filter (fun entry other hentry => ?_) hmembers) ?_
    · simp only [hentry.1]
    · intro entry other hentry
      rw [hentry.1, hentry.2]

/-- Entries hold the texts of values, and those are the same. -/
theorem ReplacementTable.build_inlined {index later : Index} {bindings : BindingGraph}
    {inlineLocal : Bool} (hindex : Index.Inlined values index later)
    (h : List.Forall₂ (SourceModule.Inlined values) modules after) :
    build index bindings values inlineLocal modules =
      build later bindings values' inlineLocal after := by
  rw [build_eq_foldl, build_eq_foldl]
  congr 1
  refine flatMap_eq_of_forall₂ h fun module module' hmodule => ?_
  have hknown : known bindings inlineLocal module = known bindings inlineLocal module' := by
    have hown : ownNames module = ownNames module' := by
      refine map_eq_of_forall₂ hmodule.enums fun declaration inlined hdeclaration => ?_
      rw [hdeclaration.name, hmodule.id]
    simp only [known, hown, hmodule.id]
  have hentries : entriesOf index bindings values inlineLocal module =
      entriesOf later bindings values' inlineLocal module' := by
    rw [entriesOf_eq_foldl, entriesOf_eq_foldl, hknown, written_inlined hagree hindex]
  simp only [rowsOf, hentries, hmodule.path]

end Table

/-- Inlining keeps the analysis. Where references of a project have become
literals that read as the values they had, the analysis succeeds again and finds the
same table. -/
theorem Analysis.ofModules_inlined {aliases : Aliases} {inlineLocal : Bool}
    {analysis : Analysis}
    (hdistinct : Enum.DistinctMembers (.ofModules modules))
    (hanalysis : ofModules aliases inlineLocal modules = .ok analysis)
    (hinlined : List.Forall₂ (SourceModule.Inlined analysis.values) modules after) :
    ∃ analysis', ofModules aliases inlineLocal after = .ok analysis' ∧
      analysis'.table = analysis.table := by
  obtain ⟨values, hevaluate, rfl⟩ := ofModules_ok hanalysis
  have hindex : Index.Inlined values (Project.link aliases modules).index
      (Project.link aliases after).index := Index.ofModules_inlined hinlined
  have hbindings : (Project.link aliases modules).bindings =
      (Project.link aliases after).bindings := by
    unfold Project.link
    rw [Project.resolverOf_inlined hinlined aliases]
    exact BindingGraph.build_inlined hinlined _
  obtain ⟨values', hevaluate', hagree⟩ := Enum.evaluate_inlined hdistinct hevaluate hindex
  rw [hbindings] at hevaluate'
  refine ⟨_, by rw [ofModules, ofProject, hevaluate']; rfl, ?_⟩
  rw [hbindings]
  exact (ReplacementTable.build_inlined hagree hindex hinlined).symm

end EnumInline
