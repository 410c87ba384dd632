import EnumInline.Proofs.Analysis.Order
import EnumInline.Proofs.Enum.Restriction

/-!
Modules that do not speak of another module do not notice it. Whatever the
module itself imports, exports or declares, the others have the same bindings,
the same values and the same entries with it as without it.
-/

namespace EnumInline

open KeyedList

section Link

variable {aliases : Aliases} {earlier later : List SourceModule}
  {added : SourceModule}

theorem Project.resolverOf_extends :
    (resolverOf aliases (earlier ++ later)).Extends
      (resolverOf aliases (earlier ++ added :: later)) added.id where
  aliases := rfl
  baseUrl := rfl
  known id := by
    rw [Bool.eq_iff_iff]
    simp only [Resolver.isKnown, resolverOf, Std.ExtTreeSet.contains_ofList,
      List.contains_iff_mem, List.map_append, List.map_cons, List.mem_append,
      List.mem_cons, Bool.or_eq_true, beq_iff_eq]
    constructor
    · rintro (hearlier | rfl | hlater)
      · exact Or.inl (Or.inl hearlier)
      · exact Or.inr rfl
      · exact Or.inl (Or.inr hlater)
    · rintro ((hearlier | hlater) | rfl)
      · exact Or.inl hearlier
      · exact Or.inr (Or.inr hlater)
      · exact Or.inr (Or.inl rfl)

variable (hunrelated :
  Unrelated (Project.resolverOf aliases (earlier ++ added :: later)) earlier later
    added)

include hunrelated

theorem Project.index_restrict :
    (link aliases (earlier ++ later)).index =
      restrict (DeclarationKey.isOutside added.id)
        (link aliases (earlier ++ added :: later)).index :=
  Enum.Index.ofModules_restrict hunrelated.ids

/-- The bindings of the other modules stand for what they stand for without the
added module. -/
theorem Project.resolved_eq {binding : Binding}
    (hbinding : binding.isOutside added.id = true) :
    (link aliases (earlier ++ later)).bindings.resolved[binding]? =
      (link aliases (earlier ++ added :: later)).bindings.resolved[binding]? := by
  have hresolved : (link aliases (earlier ++ later)).bindings.resolved =
      restrict (Binding.isOutside added.id)
        (link aliases (earlier ++ added :: later)).bindings.resolved :=
    BindingGraph.resolved_restrict resolverOf_extends hunrelated
      (index_restrict hunrelated)
  rw [hresolved, getElem?_restrict_of_keep hbinding]

/-- The other modules make the imports that they make without the
added module. -/
theorem Project.hasImport_eq {module name : String} (hmodule : module ≠ added.id) :
    (link aliases (earlier ++ later)).bindings.hasImport module name =
      (link aliases (earlier ++ added :: later)).bindings.hasImport module name := by
  have hown : (link aliases (earlier ++ later)).bindings.facts.own =
      restrict (Binding.isOutside added.id)
        (link aliases (earlier ++ added :: later)).bindings.facts.own := by
    rw [link, link, BindingGraph.facts_build, BindingGraph.facts_build]
    exact BindingFacts.own_restrict resolverOf_extends hunrelated
      (index_restrict hunrelated)
  rw [Bool.eq_iff_iff, BindingGraph.hasImport, BindingGraph.hasImport,
    Std.ExtTreeMap.contains_iff_mem, Std.ExtTreeMap.contains_iff_mem, hown,
    mem_restrict]
  exact and_iff_right (DeclarationKey.isOutside_iff.mpr hmodule)

theorem Project.agreeOutside :
    Enum.AgreeOutside (link aliases (earlier ++ later)).index
      (link aliases (earlier ++ added :: later)).index
      (link aliases (earlier ++ later)).bindings
      (link aliases (earlier ++ added :: later)).bindings added.id where
  index_eq := index_restrict hunrelated
  hasImport_eq module name hmodule := hasImport_eq hunrelated hmodule
  importTarget?_eq module name hmodule := by
    have hbinding : (Binding.imported ⟨module, name⟩).isOutside added.id = true :=
      DeclarationKey.isOutside_iff.mpr hmodule
    exact resolved_eq hunrelated hbinding
  target_ne module name target hmodule htarget := by
    have hbinding : (Binding.imported ⟨module, name⟩).isOutside added.id = true :=
      DeclarationKey.isOutside_iff.mpr hmodule
    exact DeclarationKey.isOutside_iff.mp
      (BindingGraph.isOutside_of_resolved resolverOf_extends hunrelated
        (index_restrict hunrelated) hbinding htarget)

end Link

namespace ReplacementTable

variable {index whole : Enum.Index} {bindings total : BindingGraph}
  {added : String} {values : Enum.Values}
  (h : Enum.AgreeOutside index whole bindings total added)

include h

theorem writes_iff {name : String} {key : DeclarationKey} {access text : String}
    (hkey : key.module ≠ added) :
    Writes index (restrict (MemberKey.isOutside added) values) name key access
        text ↔ Writes whole values name key access text := by
  have hvalue (member : String) :
      (restrict (MemberKey.isOutside added) values)[(⟨key, member⟩ : MemberKey)]? =
        values[(⟨key, member⟩ : MemberKey)]? :=
    getElem?_restrict_of_keep (DeclarationKey.isOutside_iff.mpr hkey)
  simp only [Writes, hvalue, Enum.Evaluation.getElem?_index_eq h hkey]

theorem entriesOf_eq {inlineLocal : Bool} {module : SourceModule}
    (hmodule : module.id ≠ added) :
    entriesOf index bindings (restrict (MemberKey.isOutside added) values)
        inlineLocal module =
      entriesOf whole total values inlineLocal module := by
  have himported (access text : String) :
      WritesImported index bindings (restrict (MemberKey.isOutside added) values)
          module access text ↔
        WritesImported whole total values module access text := by
    simp only [WritesImported, h.importTarget?_eq module.id _ hmodule]
    constructor
    · rintro ⟨name, target, htarget, hwrites⟩
      have hkey := h.target_ne module.id name target hmodule htarget
      exact ⟨name, target, htarget, (writes_iff h hkey).mp hwrites⟩
    · rintro ⟨name, target, htarget, hwrites⟩
      have hkey := h.target_ne module.id name target hmodule htarget
      exact ⟨name, target, htarget, (writes_iff h hkey).mpr hwrites⟩
  have hown (access text : String) :
      WritesOwn index (restrict (MemberKey.isOutside added) values) module access
          text ↔ WritesOwn whole values module access text := by
    simp only [WritesOwn]
    constructor
    · rintro ⟨declaration, hmem, hwrites⟩
      exact ⟨declaration, hmem, (writes_iff h hmodule).mp hwrites⟩
    · rintro ⟨declaration, hmem, hwrites⟩
      exact ⟨declaration, hmem, (writes_iff h hmodule).mpr hwrites⟩
  apply Std.ExtTreeMap.ext_getElem?
  intro access
  apply Option.ext
  intro text
  rw [getElem?_entriesOf, getElem?_entriesOf]
  simp only [IsEntry, himported, hown]

/-- The rows of the other files are what they are without the added one. -/
theorem getElem?_build_eq {inlineLocal : Bool} {earlier later : List SourceModule}
    {file : SourceModule}
    (hids : ∀ module ∈ earlier ++ later, module.id ≠ added) {path : String}
    (hpath : ModuleId.tableKey file.path ≠ path) :
    (build index bindings (restrict (MemberKey.isOutside added) values) inlineLocal
        (earlier ++ later))[path]? =
      (build whole total values inlineLocal (earlier ++ file :: later))[path]? := by
  have hrows : (earlier ++ later).flatMap (rowsOf index bindings
        (restrict (MemberKey.isOutside added) values) inlineLocal) =
      (earlier ++ later).flatMap (rowsOf whole total values inlineLocal) := by
    apply List.flatMap_congr
    intro module hmodule
    rw [rowsOf, rowsOf, entriesOf_eq h (hids module hmodule)]
  apply Option.ext
  intro entries
  rw [build_eq_foldl, build_eq_foldl, getElem?_foldl_insert, getElem?_foldl_insert,
    hrows, lastFor_flatMap_of_added]
  rintro ⟨other, row⟩ hrow hsame
  exact hpath ((mem_rowsOf.mp hrow).1.trans hsame)

end ReplacementTable

/-- An analysis that does not fail finds the same in the modules that do not
speak of an added module as it finds without it, where it does not fail
either. -/
theorem Analysis.ofModules_of_unrelated {aliases : Aliases} {inlineLocal : Bool}
    {earlier later : List SourceModule} {added : SourceModule}
    (hidentified : ∀ module ∈ earlier ++ added :: later, module.Identified)
    (hunrelated :
      Unrelated (Project.resolverOf aliases (earlier ++ added :: later)) earlier
        later added)
    {analysis : Analysis}
    (h : ofModules aliases inlineLocal (earlier ++ added :: later) =
      .ok analysis) :
    ∃ smaller, ofModules aliases inlineLocal (earlier ++ later) = .ok smaller ∧
      ∀ module ∈ earlier ++ later,
        (∀ name, smaller.project.bindings.importTarget? module.id name =
          analysis.project.bindings.importTarget? module.id name) ∧
        (∀ name, smaller.project.bindings.exportTarget? module.id name =
          analysis.project.bindings.exportTarget? module.id name) ∧
        (∀ name member, smaller.value? ⟨⟨module.id, name⟩, member⟩ =
          analysis.value? ⟨⟨module.id, name⟩, member⟩) ∧
        smaller.table.entriesForPath? module.path =
          analysis.table.entriesForPath? module.path := by
  obtain ⟨values, hvalues, rfl⟩ := ofModules_ok h
  have hagree := Project.agreeOutside hunrelated
  have hsmaller := Enum.evaluate_restrict hagree hvalues
  refine ⟨_, by rw [ofModules, ofProject, hsmaller]; rfl, ?_⟩
  intro module hmodule
  have hid : module.id ≠ added.id := hunrelated.ids module hmodule
  have hkey (name : String) :
      (⟨module.id, name⟩ : DeclarationKey).isOutside added.id = true :=
    DeclarationKey.isOutside_iff.mpr hid
  refine ⟨fun name => ?_, fun name => ?_, fun name member => ?_, ?_⟩
  · exact Project.resolved_eq hunrelated (hkey name)
  · exact Project.resolved_eq hunrelated (hkey name)
  · exact getElem?_restrict_of_keep (hkey name)
  · apply ReplacementTable.getElem?_build_eq hagree hunrelated.ids
    intro hsame
    apply hid
    have hmem : module ∈ earlier ++ added :: later := by
      simp only [List.mem_append, List.mem_cons] at hmodule ⊢
      exact hmodule.imp_right Or.inr
    rw [hidentified module hmem, hidentified added (by simp), ModuleId.ofPath,
      ModuleId.ofPath]
    exact congrArg ModuleId.stripSourceExtension hsame.symm

/-- A module that imports from the rivals, exports their names and declares an
enum of the same name. -/
def survey : SourceModule :=
  ⟨"/survey.ts", "/survey",
    [⟨"Unit", true, [⟨"Length", .reference (some "Foot") "Length"⟩]⟩],
    [⟨"./imperial", [⟨"Unit", "Foot"⟩]⟩], [.star "./metric", .star "./units"]⟩

theorem Analysis.ofModules_of_unrelated_survey :
    Unrelated (Project.resolverOf .empty (survey :: rivals)) [] rivals survey ∧
      ∃ smaller, ofModules .empty true rivals = .ok smaller ∧
        smaller.value? ⟨⟨"/imperial", "Unit"⟩, "Length"⟩ =
          some (.ofLiteral (.string "ft")) ∧
        (smaller.table.entriesForPath? "/map.ts").map
          (fun entries => entries["Unit.Length"]?) = some (some "\"ft\"") := by
  have hunrelated :
      Unrelated (Project.resolverOf .empty (survey :: rivals)) [] rivals survey :=
    ⟨by decide +kernel, by decide +kernel⟩
  have hfind : (ofModules .empty true (survey :: rivals)).map (fun analysis =>
      (analysis.value? ⟨⟨"/imperial", "Unit"⟩, "Length"⟩,
        (analysis.table.entriesForPath? "/map.ts").map
          fun entries => entries["Unit.Length"]?)) =
      .ok (some (.ofLiteral (.string "ft")), some (some "\"ft\"")) := by
    decide +kernel
  cases h : ofModules .empty true (survey :: rivals) with
  | error failure =>
    rw [h] at hfind
    cases hfind
  | ok analysis =>
    simp only [h, Except.map, Except.ok.injEq, Prod.mk.injEq] at hfind
    have hidentified : ∀ module ∈ [] ++ survey :: rivals, module.Identified := by
      decide +kernel
    obtain ⟨smaller, hsmaller, hsame⟩ :=
      ofModules_of_unrelated hidentified hunrelated h
    obtain ⟨_, _, hvalue, _⟩ := hsame (rivals[1]) (by decide +kernel)
    obtain ⟨_, _, _, hentries⟩ := hsame (rivals[3]) (by decide +kernel)
    refine ⟨hunrelated, smaller, hsmaller, ?_, ?_⟩
    · exact (hvalue "Unit" "Length").trans hfind.1
    · exact (congrArg _ hentries).trans hfind.2

end EnumInline
