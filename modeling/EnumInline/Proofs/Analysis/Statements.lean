import EnumInline.Proofs.Analysis.Order
import EnumInline.Proofs.Binding.Resolution
import EnumInline.Proofs.Enum.Evaluation

/-!
Which statement of a project an entry of its table comes from. Files of one id
are one module, whose names are those of all its files: of two declarations of
one name the later counts, of two imports too, and an import hides a
declaration. A name that a file binds itself means there what the file says as
long as no other file of the module binds it over again.
-/

namespace EnumInline

open KeyedList

namespace SourceModule

def enumsNamed (file : SourceModule) (name : String) : List Enum.Declaration :=
  file.enums.filter fun declaration => declaration.name == name

/-- The imports of a name in a file, each with its specifier and the name that
is imported. -/
def importsNamed (file : SourceModule) (name : String) : List (String × String) :=
  file.imports.flatMap fun statement =>
    (statement.names.filter fun imported => imported.localName == name).map
      fun imported => (statement.source, imported.imported)

/-- A statement that gives a name to an enum. -/
inductive NameStatement where
  | declares (declaration : Enum.Declaration)
  | imports (source imported : String)

/-- A file binds a name by one statement only. -/
def BindsOnce (file : SourceModule) (name : String) : NameStatement → Prop
  | .declares declaration =>
      file.enumsNamed name = [declaration] ∧
        (declaration.members.map Enum.Member.name).Nodup ∧
        file.importsNamed name = []
  | .imports source imported =>
      file.enumsNamed name = [] ∧ file.importsNamed name = [(source, imported)]

theorem mem_enumsNamed {file : SourceModule} {name : String}
    {declaration : Enum.Declaration} :
    declaration ∈ file.enumsNamed name ↔
      declaration ∈ file.enums ∧ declaration.name = name := by
  simp [enumsNamed]

theorem mem_importsNamed {file : SourceModule} {name source imported : String} :
    (source, imported) ∈ file.importsNamed name ↔
      ∃ statement ∈ file.imports, statement.source = source ∧
        (⟨imported, name⟩ : ImportedName) ∈ statement.names := by
  simp only [importsNamed, List.mem_flatMap, List.mem_map, List.mem_filter,
    beq_iff_eq, Prod.mk.injEq]
  constructor
  · rintro ⟨statement, hstatement, ⟨_, _⟩, ⟨hname, rfl⟩, rfl, rfl⟩
    exact ⟨statement, hstatement, rfl, hname⟩
  · rintro ⟨statement, hstatement, rfl, hname⟩
    exact ⟨statement, hstatement, ⟨imported, name⟩, ⟨hname, rfl⟩, rfl, rfl⟩

end SourceModule

section Statements

variable {resolver : Resolver} {index : Enum.Index} {earlier later : List SourceModule}
  {file : SourceModule} {name : String}

theorem Enum.Index.mem_entriesOf {key : DeclarationKey}
    {declaration : Enum.Declaration} :
    (key, declaration) ∈ Enum.Index.entriesOf file ↔
      key.module = file.id ∧ declaration ∈ file.enumsNamed key.name := by
  obtain ⟨module, name⟩ := key
  simp only [Enum.Index.entriesOf, List.mem_map, Prod.mk.injEq,
    DeclarationKey.mk.injEq, SourceModule.mem_enumsNamed]
  constructor
  · rintro ⟨_, hmem, ⟨rfl, rfl⟩, rfl⟩
    exact ⟨rfl, hmem, rfl⟩
  · rintro ⟨rfl, hmem, rfl⟩
    exact ⟨declaration, hmem, ⟨rfl, rfl⟩, rfl⟩

theorem BindingFacts.mem_ofModule_imported {key : DeclarationKey}
    {fact : BindingFact} :
    (.imported key, fact) ∈ ofModule resolver index file ↔
      key.module = file.id ∧
        ∃ source imported, (source, imported) ∈ file.importsNamed key.name ∧
          fact = .follows (.exported ⟨resolver.resolve source file.id, imported⟩) := by
  have hexport :
      (.imported key, fact) ∉
        file.exports.filterMap (ofExport? resolver index file.id) := by
    intro hmem
    obtain ⟨statement, _, hfact⟩ := List.mem_filterMap.mp hmem
    cases statement <;> cases hfact
  obtain ⟨module, name⟩ := key
  simp only [ofModule, List.mem_append, hexport, false_or, List.mem_flatMap,
    ofImport, List.mem_map, Prod.mk.injEq, Binding.imported.injEq,
    DeclarationKey.mk.injEq, SourceModule.mem_importsNamed]
  constructor
  · rintro ⟨statement, hmem, ⟨imported, _⟩, hname, ⟨rfl, rfl⟩, rfl⟩
    exact ⟨rfl, _, imported, ⟨statement, hmem, rfl, hname⟩, rfl⟩
  · rintro ⟨rfl, _, imported, ⟨statement, hmem, rfl, hname⟩, rfl⟩
    exact ⟨statement, hmem, ⟨imported, name⟩, hname, ⟨rfl, rfl⟩, rfl⟩

/-- The index has the only enum of a name in a file, if no later file of the
module declares another. -/
theorem Enum.Index.getElem?_of_enumsNamed {declaration : Enum.Declaration}
    (hown : file.enumsNamed name = [declaration])
    (hlater : ∀ other ∈ later, other.id = file.id → other.enumsNamed name = []) :
    (ofModules (earlier ++ file :: later))[(⟨file.id, name⟩ : DeclarationKey)]? =
      some declaration := by
  apply getElem?_foldl_insert.mpr
  apply lastFor_flatMap_of_later
  · exact mem_entriesOf.mpr ⟨rfl, by simp [hown]⟩
  · intro other hother
    have hnamed := (mem_entriesOf.mp hother).2
    rw [hown] at hnamed
    exact List.mem_singleton.mp hnamed
  · rintro other hother ⟨_, another⟩ hentry rfl
    obtain ⟨hid, hnamed⟩ := mem_entriesOf.mp hentry
    rw [hlater other hother hid.symm] at hnamed
    cases hnamed

/-- A name leads to what its only import in a file speaks of, if no later file
of the module imports it. -/
theorem BindingGraph.importTarget?_of_importsNamed {source imported : String}
    (hown : file.importsNamed name = [(source, imported)])
    (hlater : ∀ other ∈ later,
      other.id = file.id → other.importsNamed name = []) :
    (build resolver index (earlier ++ file :: later)).importTarget? file.id name =
      (build resolver index (earlier ++ file :: later)).exportTarget?
        (resolver.resolve source file.id) imported := by
  apply resolved_of_follows
  rw [BindingFacts.isFact_iff_lastFor]
  apply lastFor_flatMap_of_later
  · exact BindingFacts.mem_ofModule_imported.mpr
      ⟨rfl, source, imported, by simp [hown], rfl⟩
  · intro fact hfact
    obtain ⟨_, _, _, hnamed, rfl⟩ := BindingFacts.mem_ofModule_imported.mp hfact
    rw [hown] at hnamed
    cases List.mem_singleton.mp hnamed
    rfl
  · rintro other hother ⟨_, fact⟩ hentry rfl
    obtain ⟨hid, _, _, hnamed, _⟩ :=
      BindingFacts.mem_ofModule_imported.mp hentry
    rw [hlater other hother hid.symm] at hnamed
    cases hnamed

end Statements

namespace Analysis

/-- What a statement of a file makes the member `member` of the enum worth that
it calls `name`. -/
inductive StatementWorth (analysis : Analysis) (file : SourceModule)
    (name member : String) : SourceModule.NameStatement → MemberValue → Prop where
  | declares {declaration : Enum.Declaration} {value : MemberValue}
      (hworth : Enum.Worth analysis.project.index analysis.project.bindings
        (fun key value => analysis.value? key = some value) ⟨file.id, name⟩
        declaration member value) :
      StatementWorth analysis file name member (.declares declaration) value
  | imports {source imported : String} {target : DeclarationKey}
      {declaration : Enum.Declaration} {value : MemberValue}
      (htarget : analysis.project.bindings.exportTarget?
        (analysis.project.resolver.resolve source file.id) imported = some target)
      (hindex : analysis.project.index[target]? = some declaration)
      (hmember : declaration.hasMember member = true)
      (hvalue : analysis.value? ⟨target, member⟩ = some value) :
      StatementWorth analysis file name member (.imports source imported) value

/-- Another file of the module binds the name over again: a later one by a
statement of the same kind, or any by an import that leads to an enum with
the member. -/
def Overridden (analysis : Analysis) (file : SourceModule)
    (later : List SourceModule) (name member : String) :
    SourceModule.NameStatement → Prop
  | .declares _ =>
      (∃ other ∈ later, other.id = file.id ∧ other.enumsNamed name ≠ []) ∨
        ∃ target declaration value,
          analysis.project.bindings.importTarget? file.id name = some target ∧
            analysis.project.index[target]? = some declaration ∧
            declaration.hasMember member = true ∧
            analysis.value? ⟨target, member⟩ = some value
  | .imports _ _ =>
      ∃ other ∈ later, other.id = file.id ∧ other.importsNamed name ≠ []

section Entry

variable {aliases : Aliases} {modules earlier later : List SourceModule}
  {file : SourceModule} {analysis : Analysis} {name member access text : String}
  {entries : Entries}

/-- The entries that a table has for a file are those of the file. -/
theorem isEntry_of_entriesForPath?
    (h : ofModules aliases true modules = .ok analysis)
    (hkeys : (modules.map fun module => ModuleId.tableKey module.path).Nodup)
    (hfile : file ∈ modules)
    (hentries : analysis.table.entriesForPath? file.path = some entries)
    (htext : entries[access]? = some text) :
    ReplacementTable.IsEntry analysis.project.index analysis.project.bindings
      analysis.values true file access text := by
  obtain ⟨values, _, rfl⟩ := ofModules_ok h
  obtain ⟨module, hmodule, hpath, rfl, _⟩ :=
    (ReplacementTable.getElem?_build hkeys).mp hentries
  obtain rfl : module = file :=
    List.inj_on_of_nodup_map hkeys hmodule hfile hpath
  exact ReplacementTable.getElem?_entriesOf.mp htext

/-- The values of an analysis are those that the enums make the
members worth. -/
theorem worth_of_value? (h : ofModules aliases true modules = .ok analysis)
    {declaration : Enum.Declaration} {key : DeclarationKey} {value : MemberValue}
    (hindex : analysis.project.index[key]? = some declaration)
    (hnodup : (declaration.members.map Enum.Member.name).Nodup)
    (hvalue : analysis.value? ⟨key, member⟩ = some value) :
    Enum.Worth analysis.project.index analysis.project.bindings
      (fun key value => analysis.value? key = some value) key declaration member
      value := by
  obtain ⟨values, hevaluate, rfl⟩ := ofModules_ok h
  have hdistinct : Enum.DistinctIn (Project.link aliases modules).index key := by
    intro other hother
    obtain rfl := Option.some.inj (hindex.symm.trans hother)
    exact hnodup
  obtain ⟨other, hother, hworth⟩ :=
    Enum.Evaluation.worth_of_evaluate hevaluate hdistinct hvalue
  obtain rfl : declaration = other := Option.some.inj (hindex.symm.trans hother)
  exact hworth

section Statement

variable {statement : SourceModule.NameStatement} {value : MemberValue}
  (h : ofModules aliases true modules = .ok analysis)
  (hmodules : modules = earlier ++ file :: later)
  (hbinds : file.BindsOnce name statement)
  (hfree : ¬ Overridden analysis file later name member statement)

include h hmodules hbinds hfree

/-- An import through which a member has its value is the statement of
the file. -/
theorem statementWorth_of_import {target : DeclarationKey}
    {declaration : Enum.Declaration}
    (htarget : analysis.project.bindings.importTarget? file.id name = some target)
    (hindex : analysis.project.index[target]? = some declaration)
    (hmember : declaration.hasMember member = true)
    (hvalue : analysis.value? ⟨target, member⟩ = some value) :
    StatementWorth analysis file name member statement value := by
  cases statement with
  | declares _ =>
    exact absurd (Or.inr ⟨target, declaration, value, htarget, hindex, hmember,
      hvalue⟩) hfree
  | imports source imported =>
    obtain ⟨values, _, rfl⟩ := ofModules_ok h
    have hexport : (Project.link aliases modules).bindings.exportTarget?
        ((Project.link aliases modules).resolver.resolve source file.id)
        imported = some target := by
      rw [← htarget]
      subst hmodules
      refine (BindingGraph.importTarget?_of_importsNamed hbinds.2 ?_).symm
      intro other hother hid
      by_contra hagain
      exact hfree ⟨other, hother, hid, hagain⟩
    exact .imports hexport hindex hmember hvalue

/-- A declaration through which a member has its value is the statement of
the file. -/
theorem statementWorth_of_own (hnamed : file.enumsNamed name ≠ [])
    (hvalue : analysis.value? ⟨⟨file.id, name⟩, member⟩ = some value) :
    StatementWorth analysis file name member statement value := by
  cases statement with
  | declares only =>
    obtain ⟨honly, hnodup, _⟩ := hbinds
    have hlast : analysis.project.index[(⟨file.id, name⟩ : DeclarationKey)]? =
        some only := by
      obtain ⟨values, _, rfl⟩ := ofModules_ok h
      subst hmodules
      apply Enum.Index.getElem?_of_enumsNamed honly
      intro other hother hid
      by_contra hagain
      exact hfree (Or.inl ⟨other, hother, hid, hagain⟩)
    exact .declares (worth_of_value? h hlast hnodup hvalue)
  | imports _ _ => exact absurd hbinds.1 hnamed

end Statement

/-- An entry of a file carries the value of the member of the enum for which the
file's own statement stands, unless the statement is overridden. -/
theorem entry_of_bindsOnce (h : ofModules aliases true modules = .ok analysis)
    (hkeys : (modules.map fun module => ModuleId.tableKey module.path).Nodup)
    (hmodules : modules = earlier ++ file :: later)
    {statement : SourceModule.NameStatement}
    (hbinds : file.BindsOnce name statement)
    (hmember : Text.isPlainName member = true)
    (hfree : ¬ Overridden analysis file later name member statement)
    (hentries : analysis.table.entriesForPath? file.path = some entries)
    (htext : entries[ReplacementTable.token name member]? = some text) :
    ∃ value, StatementWorth analysis file name member statement value ∧
      text = value.text := by
  have hfile : file ∈ modules := by simp [hmodules]
  have hentry := isEntry_of_entriesForPath? h hkeys hfile hentries htext
  rcases hentry with ⟨_, target, htarget, hwrites⟩ | ⟨_, _, own, hown, hwrites⟩
  · obtain ⟨rfl, declaration, value, hindex, hthere, hvalue, rfl⟩ :=
      hwrites.of_token hmember
    exact ⟨value, statementWorth_of_import h hmodules hbinds hfree htarget hindex
      hthere hvalue, rfl⟩
  · obtain ⟨rfl, _, value, _, _, hvalue, rfl⟩ := hwrites.of_token hmember
    have hnamed : own ∈ file.enumsNamed own.name :=
      SourceModule.mem_enumsNamed.mpr ⟨hown, rfl⟩
    exact ⟨value, statementWorth_of_own h hmodules hbinds hfree
      (List.ne_nil_of_mem hnamed) hvalue, rfl⟩

end Entry

/-- An enum with one member. -/
def single (name text : String) : Enum.Declaration :=
  ⟨name, false, [⟨"A", .literal none (.string text)⟩]⟩

/-- A file that declares `E` and `F` and imports `G`. -/
def ownFile : SourceModule :=
  ⟨"/p/a.ts", "/p/a", [single "E" "own", single "F" "own"],
    [⟨"./one", [⟨"G", "G"⟩]⟩], []⟩

/-- A file of the same module that declares `E` and imports `F` and `G`. -/
def otherFile : SourceModule :=
  ⟨"/p/a.tsx", "/p/a", [single "E" "other"],
    [⟨"./two", [⟨"F", "F"⟩, ⟨"G", "G"⟩]⟩], []⟩

/-- The two files with the modules from which they import. -/
def twins : List SourceModule :=
  [ownFile, otherFile,
    ⟨"/p/one.ts", "/p/one", [single "G" "own"], [], [.ofLocal "G" "G"]⟩,
    ⟨"/p/two.ts", "/p/two", [single "F" "other", single "G" "other"], [],
      [.ofLocal "F" "F", .ofLocal "G" "G"]⟩]

theorem exists_analysis_twins :
    ∃ analysis entries others, ofModules .empty true twins = .ok analysis ∧
      analysis.project = Project.link .empty twins ∧
      analysis.value? ⟨⟨"/p/one", "G"⟩, "A"⟩ = some (.ofLiteral (.string "own")) ∧
      analysis.table.entriesForPath? ownFile.path = some entries ∧
      analysis.table.entriesForPath? otherFile.path = some others ∧
      (∀ name ∈ ["E", "F", "G"],
        entries[ReplacementTable.token name "A"]? = some "\"other\"") ∧
      others[ReplacementTable.token "E" "A"]? = some "\"other\"" := by
  have hfind : (ofModules .empty true twins).map (fun analysis =>
      (analysis.value? ⟨⟨"/p/one", "G"⟩, "A"⟩,
        (analysis.table.entriesForPath? ownFile.path).map fun entries =>
          ["E", "F", "G"].map fun name =>
            entries[ReplacementTable.token name "A"]?,
        (analysis.table.entriesForPath? otherFile.path).map fun entries =>
          entries[ReplacementTable.token "E" "A"]?)) =
      .ok (some (.ofLiteral (.string "own")),
        some [some "\"other\"", some "\"other\"", some "\"other\""],
        some (some "\"other\"")) := by
    decide +kernel
  cases h : ofModules .empty true twins with
  | error failure =>
    rw [h] at hfind
    cases hfind
  | ok analysis =>
    obtain ⟨values, _, hanalysis⟩ := ofModules_ok h
    simp only [h, Except.map, Except.ok.injEq, Prod.mk.injEq,
      Option.map_eq_some_iff] at hfind
    obtain ⟨hvalue, ⟨entries, hentries, hown⟩, others, hothers, hother⟩ := hfind
    simp only [List.map_cons, List.map_nil, List.cons.injEq] at hown
    refine ⟨analysis, entries, others, rfl, by rw [hanalysis], hvalue, hentries,
      hothers, ?_, hother⟩
    simpa using hown

theorem entry_of_bindsOnce_twins :
    ∃ analysis value, ofModules .empty true twins = .ok analysis ∧
      StatementWorth analysis otherFile "E" "A" (.declares (single "E" "other"))
        value ∧
      "\"other\"" = value.text := by
  obtain ⟨analysis, _, others, h, hproject, _, _, hothers, _, htext⟩ :=
    exists_analysis_twins
  have hsplit : twins = [ownFile] ++ otherFile :: twins.drop 2 := rfl
  have hbinds : otherFile.BindsOnce "E" (.declares (single "E" "other")) :=
    ⟨by decide +kernel, by decide +kernel, by decide +kernel⟩
  have hfree : ¬ Overridden analysis otherFile (twins.drop 2) "E" "A"
      (.declares (single "E" "other")) := by
    rintro (⟨other, hother, hid, _⟩ | ⟨target, _, _, htarget, _⟩)
    · revert other
      decide +kernel
    · have hnone : (Project.link .empty twins).bindings.importTarget?
          otherFile.id "E" = none := by
        decide +kernel
      rw [hproject, hnone] at htarget
      cases htarget
  obtain ⟨value, hworth, hvalue⟩ := entry_of_bindsOnce h (by decide +kernel)
    hsplit hbinds (by decide +kernel) hfree hothers htext
  exact ⟨analysis, value, h, hworth, hvalue⟩

theorem worth_single {index : Enum.Index} {bindings : BindingGraph}
    {known : MemberKey → MemberValue → Prop} {key : DeclarationKey}
    {name text : String} {value : MemberValue}
    (h : Enum.Worth index bindings known key (single name text) "A" value) :
    value = .ofLiteral (.string text) := by
  cases h with
  | @literal position _ _ hmember =>
    cases position with
    | zero =>
      cases hmember
      rfl
    | succ _ => cases hmember
  | first hmember => cases hmember
  | next hmember _ _ _ => cases hmember
  | @reference position _ _ _ _ hmember _ _ =>
    cases position <;> cases hmember

theorem not_statementWorth_single {analysis : Analysis} {file : SourceModule}
    {name : String} :
    ¬ ∃ value, StatementWorth analysis file name "A"
        (.declares (single name "own")) value ∧ "\"other\"" = value.text := by
  rintro ⟨value, ⟨hworth⟩, hvalue⟩
  rw [worth_single hworth] at hvalue
  revert hvalue
  decide +kernel

/-- The names that a file binds do not always mean what the file says: each of
the three that `ownFile` binds is bound over again by `otherFile`. -/
theorem entries_not_own_twins :
    ∃ analysis, ofModules .empty true twins = .ok analysis ∧
      (twins.map fun module => ModuleId.tableKey module.path).Nodup ∧
      (∀ module ∈ twins, module.Identified) ∧
      ∀ name ∈ ["E", "F", "G"], ∃ statement entries,
        ownFile.BindsOnce name statement ∧
        analysis.table.entriesForPath? ownFile.path = some entries ∧
        entries[ReplacementTable.token name "A"]? = some "\"other\"" ∧
        ¬ ∃ value, StatementWorth analysis ownFile name "A" statement value ∧
          "\"other\"" = value.text := by
  obtain ⟨analysis, entries, _, h, hproject, hgiven, hentries, _, htext, _⟩ :=
    exists_analysis_twins
  refine ⟨analysis, h, by decide +kernel, by decide +kernel, ?_⟩
  intro name hname
  have hcases : name = "E" ∨ name = "F" ∨ name = "G" := by simpa using hname
  rcases hcases with rfl | rfl | rfl
  · exact ⟨.declares (single "E" "own"), entries,
      ⟨by decide +kernel, by decide +kernel, by decide +kernel⟩, hentries,
      htext "E" hname, not_statementWorth_single⟩
  · exact ⟨.declares (single "F" "own"), entries,
      ⟨by decide +kernel, by decide +kernel, by decide +kernel⟩, hentries,
      htext "F" hname, not_statementWorth_single⟩
  · refine ⟨.imports "./one" "G", entries, ⟨by decide +kernel, by decide +kernel⟩,
      hentries, htext "G" hname, ?_⟩
    rintro ⟨value, hworth, hvalue⟩
    cases hworth with
    | @imports _ _ target _ _ htarget _ _ hfound =>
      have hone : (Project.link .empty twins).bindings.exportTarget?
          ((Project.link .empty twins).resolver.resolve "./one" ownFile.id) "G" =
            some ⟨"/p/one", "G"⟩ := by
        decide +kernel
      rw [hproject, hone] at htarget
      cases htarget
      rw [hgiven] at hfound
      cases hfound
      revert hvalue
      decide +kernel

end Analysis

end EnumInline
