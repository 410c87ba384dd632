import EnumInline.Analysis
import EnumInline.Proofs.Binding.Meaning
import EnumInline.Proofs.Table.Entries

/-!
The order in which the modules of a project are listed does not matter. What a
module contributes to a map lies under keys with its id, so modules with
different ids never replace what another has stated; and from then on the
phases read the maps, which are ordered themselves.
-/

namespace EnumInline

open KeyedList

/-- The id of a module is that of its path. -/
def SourceModule.Identified (module : SourceModule) : Prop :=
  module.id = ModuleId.ofPath module.path

instance {module : SourceModule} : Decidable module.Identified :=
  inferInstanceAs (Decidable (_ = _))

theorem Enum.Declaration.exists_syntax_of_mem {items : List TypeScript.Item}
    {declaration : Enum.Declaration} (h : declaration ∈ ofItems items) :
    ∃ exported syntaxTree, .enum exported syntaxTree ∈ items ∧
      declaration.name = syntaxTree.name ∧ declaration.members =
        syntaxTree.members.map fun member => ⟨member.name, .ofExpr? member.value⟩ := by
  obtain ⟨item, hitem, hfound⟩ := List.mem_filterMap.mp h
  cases item with
  | «enum» exported syntaxTree =>
    rw [ofItem?] at hfound
    split at hfound
    case isTrue =>
      cases hfound
      exact ⟨exported, syntaxTree, hitem, rfl, rfl⟩
    case isFalse => cases hfound
  | _ => cases hfound

theorem SourceModule.exists_parse_of_ofScript {path : String} {elements : Bool}
    {script : List Char} {module : SourceModule}
    (h : ofScript path elements script = .ok (.parsed module)) :
    ∃ items, TypeScript.parse elements script = .ok items ∧
      module = ofItems path items := by
  unfold ofScript at h
  split at h
  case h_1 items hparse =>
    cases h
    exact ⟨items, hparse, rfl⟩
  case h_2 => cases h

/-- A module is made of the statements of a script, under the path that was read. -/
theorem SourceModule.exists_parse_of_read {path source : String}
    {module : SourceModule}
    (h : SourceModule.read path source = .ok (.parsed module)) :
    ∃ elements script items, TypeScript.parse elements script = .ok items ∧
      module = ofItems path items := by
  unfold SourceModule.read at h
  split at h
  case h_1 => exact ⟨_, _, exists_parse_of_ofScript h⟩
  case h_2 =>
    split at h
    case h_1 => cases h
    case h_2 => exact ⟨_, _, exists_parse_of_ofScript h⟩

theorem SourceModule.exists_items_of_read {path source : String}
    {module : SourceModule}
    (h : SourceModule.read path source = .ok (.parsed module)) :
    ∃ items, module = ofItems path items := by
  obtain ⟨_, _, items, _, hmodule⟩ := exists_parse_of_read h
  exact ⟨items, hmodule⟩

theorem SourceModule.identified_of_read {path source : String}
    {module : SourceModule}
    (h : SourceModule.read path source = .ok (.parsed module)) :
    module.Identified := by
  obtain ⟨items, rfl⟩ := exists_items_of_read h
  rfl

/-- An analysis that does not fail holds the values and the table of
its project. -/
theorem Analysis.ofModules_ok {aliases : Aliases} {inlineLocal : Bool}
    {modules : List SourceModule} {analysis : Analysis}
    (h : ofModules aliases inlineLocal modules = .ok analysis) :
    ∃ values, Enum.evaluate (Project.link aliases modules).index
        (Project.link aliases modules).bindings = .ok values ∧
      analysis = ⟨Project.link aliases modules, values,
        ReplacementTable.build (Project.link aliases modules).index
          (Project.link aliases modules).bindings values inlineLocal modules⟩ := by
  unfold ofModules ofProject at h
  cases hvalues : Enum.evaluate (Project.link aliases modules).index
      (Project.link aliases modules).bindings with
  | error failure =>
    rw [hvalues] at h
    cases h
  | ok values =>
    rw [hvalues] at h
    cases h
    exact ⟨values, rfl, rfl⟩

section Perm

variable {modules permuted : List SourceModule}

theorem keysApart_of_ids {κ β : Type} {entries : SourceModule → List (κ × β)}
    (owner : κ → String)
    (howner : ∀ module, ∀ entry ∈ entries module, owner entry.1 = module.id)
    (hdistinct : (modules.map SourceModule.id).Nodup) :
    KeysApart entries modules := by
  refine (List.pairwise_map.mp hdistinct).imp ?_
  intro first second hne entry hentry other hother heq
  apply hne
  rw [← howner first entry hentry, heq, howner second other hother]

namespace Enum.Index

theorem ofModules_perm (hperm : modules.Perm permuted)
    (hdistinct : (modules.map SourceModule.id).Nodup) :
    ofModules modules = ofModules permuted :=
  foldl_insert_perm hperm
    (keysApart_of_ids DeclarationKey.module (fun _ => module_of_mem_entriesOf)
      hdistinct)

end Enum.Index

namespace BindingFacts

variable {resolver : Resolver} {index : Enum.Index}

theorem ofModules_perm (hperm : modules.Perm permuted)
    (hdistinct : (modules.map SourceModule.id).Nodup) :
    ofModules resolver index modules = ofModules resolver index permuted := by
  have hown : (ofModules resolver index modules).own =
      (ofModules resolver index permuted).own :=
    foldl_insert_perm hperm
      (keysApart_of_ids (fun binding => binding.key.module)
        (fun _ => module_of_mem_ofModule) hdistinct)
  have hstars : (ofModules resolver index modules).stars =
      (ofModules resolver index permuted).stars := by
    apply Std.ExtTreeSet.ext_mem
    rintro ⟨source, importer⟩
    simp only [mem_stars, IsStar, hperm.mem_iff]
  calc ofModules resolver index modules
    _ = ⟨(ofModules resolver index modules).own,
      (ofModules resolver index modules).stars⟩ := rfl
    _ = ⟨(ofModules resolver index permuted).own,
      (ofModules resolver index permuted).stars⟩ := by
      rw [hown, hstars]
    _ = ofModules resolver index permuted := rfl

end BindingFacts

theorem BindingGraph.build_perm {resolver : Resolver} {index : Enum.Index}
    (hperm : modules.Perm permuted)
    (hdistinct : (modules.map SourceModule.id).Nodup) :
    build resolver index modules = build resolver index permuted := by
  simp only [build, BindingFacts.ofModules_perm hperm hdistinct]

namespace Project

theorem resolverOf_perm {aliases : Aliases} (hperm : modules.Perm permuted) :
    resolverOf aliases modules = resolverOf aliases permuted := by
  have hknown : Std.ExtTreeSet.ofList (modules.map (·.id)) =
      Std.ExtTreeSet.ofList (permuted.map (·.id)) := by
    apply Std.ExtTreeSet.ext_mem
    intro id
    simp only [Std.ExtTreeSet.mem_ofList, List.contains_iff_mem,
      (hperm.map _).mem_iff]
  rw [resolverOf, resolverOf, hknown]

theorem link_perm {aliases : Aliases} (hperm : modules.Perm permuted)
    (hdistinct : (modules.map SourceModule.id).Nodup) :
    link aliases permuted =
      { link aliases modules with modules := permuted } := by
  simp only [link, resolverOf_perm hperm, Enum.Index.ofModules_perm hperm hdistinct,
    BindingGraph.build_perm hperm hdistinct]

end Project

namespace ReplacementTable

variable {index : Enum.Index} {bindings : BindingGraph} {values : Enum.Values}
  {inlineLocal : Bool}

theorem build_perm (hperm : modules.Perm permuted)
    (hdistinct : (modules.map SourceModule.id).Nodup)
    (hidentified : ∀ module ∈ modules, module.Identified) :
    build index bindings values inlineLocal modules =
      build index bindings values inlineLocal permuted := by
  rw [build_eq_foldl, build_eq_foldl]
  apply foldl_insert_perm hperm
  refine (List.pairwise_map.mp hdistinct).imp_of_mem ?_
  rintro first second hfirst hsecond hne ⟨path, _⟩ hrow ⟨other, _⟩ hother heq
  -- one table key means one id, since the id is the key without its extension
  apply hne
  rw [hidentified first hfirst, hidentified second hsecond, ModuleId.ofPath,
    ModuleId.ofPath]
  congr 1
  exact (mem_rowsOf.mp hrow).1.trans (heq.trans (mem_rowsOf.mp hother).1.symm)

end ReplacementTable

/-- The index, the bindings, the values and the table of an analysis, with the
digest of the table. -/
def Analysis.findings (analysis : Analysis) :
    Enum.Index × BindingGraph × Enum.Values × ReplacementTable × String :=
  (analysis.project.index, analysis.project.bindings, analysis.values,
    analysis.table, analysis.table.digest)

/-- An analysis finds the same in modules that are listed in another order, or
fails in the same way. -/
theorem Analysis.findings_perm (aliases : Aliases) (inlineLocal : Bool)
    (hperm : modules.Perm permuted)
    (hdistinct : (modules.map SourceModule.id).Nodup)
    (hidentified : ∀ module ∈ modules, module.Identified) :
    (Project.link aliases permuted).index =
      (Project.link aliases modules).index ∧
      (Project.link aliases permuted).bindings =
        (Project.link aliases modules).bindings ∧
      (ofModules aliases inlineLocal permuted).map findings =
        (ofModules aliases inlineLocal modules).map findings := by
  have hlink : Project.link aliases permuted =
      { Project.link aliases modules with modules := permuted } :=
    Project.link_perm hperm hdistinct
  refine ⟨by rw [hlink], by rw [hlink], ?_⟩
  unfold ofModules ofProject
  rw [hlink]
  dsimp only
  cases Enum.evaluate (Project.link aliases modules).index
    (Project.link aliases modules).bindings with
  | error failure => rfl
  | ok values =>
    have htable : ReplacementTable.build (Project.link aliases modules).index
        (Project.link aliases modules).bindings values inlineLocal modules =
        ReplacementTable.build (Project.link aliases modules).index
        (Project.link aliases modules).bindings values inlineLocal permuted :=
      ReplacementTable.build_perm hperm hdistinct hidentified
    change Except.ok _ = Except.ok _
    simp only [findings, ← htable]
    rfl

end Perm

/-- Two modules declare an enum of one name, and a third exports the names
of both. -/
def rivals : List SourceModule :=
  [⟨"/metric.ts", "/metric",
      [⟨"Unit", true, [⟨"Length", .literal none (.string "m")⟩]⟩], [],
      [.declared "Unit"]⟩,
    ⟨"/imperial.ts", "/imperial",
      [⟨"Unit", true, [⟨"Length", .literal none (.string "ft")⟩]⟩], [],
      [.declared "Unit"]⟩,
    ⟨"/units.ts", "/units", [], [], [.star "./metric", .star "./imperial"]⟩,
    ⟨"/map.ts", "/map", [], [⟨"./units", [⟨"Unit", "Unit"⟩]⟩], []⟩]

theorem Analysis.findings_perm_rivals :
    (ofModules .empty false rivals.reverse).map findings =
        (ofModules .empty false rivals).map findings ∧
      (Project.link .empty rivals.reverse).bindings.importTarget? "/map" "Unit" =
        some ⟨"/imperial", "Unit"⟩ := by
  obtain ⟨_, hbindings, hfindings⟩ :=
    findings_perm .empty false rivals.reverse_perm.symm
      (by decide +kernel) (by decide +kernel)
  refine ⟨hfindings, ?_⟩
  rw [hbindings]
  decide +kernel

end EnumInline
