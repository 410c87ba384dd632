import EnumInline.Proofs.Analysis.Targets
import EnumInline.Proofs.Substitution.SingleAccess
import EnumInline.Proofs.TypeScript.Names

/-!
Which entries of a table can be acted on. A file knows each enum by a name that some
source spells, and the members in the table have plain names. The characters that may
continue a name in a source are more than those of which the scanner makes a run, and
nothing keeps a table from holding an access that begins with such a name.
-/

namespace EnumInline

open Text TypeScript KeyedList

namespace SourceModule

variable {module : SourceModule}

theorem IsRead.exists_spelled_items (h : module.IsRead) :
    ∃ path items, module = ofItems path items ∧ ∀ item ∈ items, item.IsSpelled := by
  obtain ⟨path, source, hread⟩ := h
  obtain ⟨elements, script, items, hparse, rfl⟩ := exists_parse_of_read hread
  exact ⟨path, items, rfl, isSpelled_of_parse hparse⟩

theorem IsRead.isSourceName_enum (h : module.IsRead) {declaration : Enum.Declaration}
    (hdeclaration : declaration ∈ module.enums) :
    isSourceName declaration.name.toList = true := by
  obtain ⟨path, items, rfl, hspelled⟩ := h.exists_spelled_items
  obtain ⟨exported, syntaxTree, hitem, hname, -⟩ :=
    Enum.Declaration.exists_syntax_of_mem hdeclaration
  rw [hname]
  exact hspelled _ hitem

theorem IsRead.isSourceName_import (h : module.IsRead) {statement : ImportStatement}
    (hstatement : statement ∈ module.imports) {name : ImportedName}
    (hname : name ∈ statement.names) : isSourceName name.localName.toList = true := by
  obtain ⟨path, items, rfl, hspelled⟩ := h.exists_spelled_items
  obtain ⟨item, hitem, hfound⟩ := List.mem_filterMap.mp hstatement
  have hnames := hspelled item hitem
  cases item with
  | importNames source names =>
    rw [ImportStatement.ofItem?] at hfound
    split at hfound
    case isTrue => cases hfound
    case isFalse =>
      cases hfound
      obtain ⟨pair, hpair, rfl⟩ := List.mem_map.mp hname
      exact hnames pair hpair
  | _ => cases hfound

end SourceModule

section Names

variable {resolver : Resolver} {index : Enum.Index} {modules : List SourceModule}
  (hread : ∀ module ∈ modules, module.IsRead)

include hread

theorem BindingGraph.isSourceName_of_importTarget? {id name : String} {target : DeclarationKey}
    (h : (build resolver index modules).importTarget? id name = some target) :
    isSourceName name.toList = true := by
  obtain ⟨fact, hfact⟩ := exists_fact_of_importTarget? h
  obtain ⟨module, hmodule, hentry⟩ := hfact.exists_module
  rcases List.mem_append.mp hentry with hexport | himport
  · obtain ⟨statement, _, hstated⟩ := List.mem_filterMap.mp hexport
    cases statement <;> cases hstated
  · obtain ⟨statement, hstatement, hnames⟩ := List.mem_flatMap.mp himport
    obtain ⟨imported, himported, hstated⟩ := List.mem_map.mp hnames
    cases hstated
    exact (hread module hmodule).isSourceName_import hstatement himported

theorem ReplacementTable.isSourceName_of_known {inlineLocal : Bool} {module : SourceModule}
    (hmodule : module ∈ modules) {enum : String × DeclarationKey}
    (h : enum ∈ known (BindingGraph.build resolver index modules) inlineLocal module) :
    isSourceName enum.1.toList = true := by
  rcases List.mem_append.mp h with hown | himport
  · split at hown
    case isTrue =>
      obtain ⟨declaration, hdeclaration, rfl⟩ := List.mem_map.mp hown
      exact (hread module hmodule).isSourceName_enum hdeclaration
    case isFalse => cases hown
  · exact BindingGraph.isSourceName_of_importTarget? hread (mem_importsOf.mp himport)

/-- An entry is the access to a plain name in an enum whose name a source spells, and it holds
the text of a value. -/
theorem ReplacementTable.exists_token_of_entry {values : Enum.Values} {inlineLocal : Bool}
    {path access text : String} {entries : Entries}
    (hrow : (build index (BindingGraph.build resolver index modules) values inlineLocal
      modules)[path]? = some entries)
    (hentry : entries[access]? = some text) :
    ∃ name member, access = token name member ∧ isSourceName name.toList = true ∧
      isPlainName member = true ∧ ∃ value : MemberValue, text = value.text := by
  obtain ⟨module, hmodule, enum, henum, hwrites⟩ := exists_written_of_entry hrow hentry
  obtain ⟨_, member, value, -, -, hplain, -, haccess, htext⟩ := hwrites
  exact ⟨enum.1, member, haccess, isSourceName_of_known hread hmodule henum, hplain, value, htext⟩

end Names

/-- An entry of a project is an access to a plain name in an enum whose name a source spells. A
source that consists of the access alone becomes the text of the entry exactly if the name of the
enum is plain as well. -/
theorem Analysis.replace_token_iff {aliases : Aliases} {inlineLocal : Bool}
    {modules : List SourceModule} {analysis : Analysis}
    (hread : ∀ module ∈ modules, module.IsRead)
    (h : ofModules aliases inlineLocal modules = .ok analysis) :
    ∀ (path : String) (entries : Entries), analysis.table[path]? = some entries →
      ∀ access text : String, entries[access]? = some text →
        ∃ name member, access = ReplacementTable.token name member ∧
          isSourceName name.toList = true ∧ isPlainName member = true ∧
          (Substitution.replace entries access = text ↔ isPlainName name = true) := by
  obtain ⟨values, -, rfl⟩ := ofModules_ok h
  intro path entries hrow access text hentry
  obtain ⟨name, member, rfl, hname, hmember, value, rfl⟩ :=
    ReplacementTable.exists_token_of_entry hread hrow hentry
  refine ⟨name, member, rfl, hname, hmember, fun hreplaced => ?_, fun hplain => ?_⟩
  · by_contra hplain
    rw [Bool.not_eq_true] at hplain
    exact Substitution.replace_token_ne value hname hplain hreplaced
  · exact Substitution.replace_token hplain hmember hentry

/-- A file with two enums. The mark over the last letter of the first name is a character of its
own, and not an alphabetic one. -/
def cafes : List SourceModule :=
  [⟨"/cafes.ts", "/cafes", [⟨"Cafe\u0301", false, [⟨"Open", .implicit⟩]⟩,
      ⟨"Bar", false, [⟨"Shut", .literal none (.string "shut")⟩]⟩], [], []⟩]

theorem isRead_of_mem_cafes : ∀ module ∈ cafes, module.IsRead := by
  intro module hmodule
  rw [cafes, List.mem_singleton] at hmodule
  subst hmodule
  exact ⟨"/cafes.ts",
    "const enum Cafe\u0301 \x7b Open \x7d\nconst enum Bar \x7b Shut = \"shut\" \x7d",
    by decide +kernel⟩

/-- What the table has for the file, and what becomes of the access with the mark. -/
theorem exists_entries_of_cafes : ∃ analysis entries,
    Analysis.ofModules .empty true cafes = .ok analysis ∧
      analysis.table["/cafes.ts"]? = some entries ∧
      entries["Bar.Shut"]? = some "\"shut\"" ∧ entries["Cafe\u0301.Open"]? = some "0" ∧
      Substitution.replace entries "Cafe\u0301.Open" = "Cafe\u0301.Open" := by
  have hcheck : (Analysis.ofModules .empty true cafes).toOption.any (fun analysis =>
      analysis.table["/cafes.ts"]?.any fun entries =>
        decide (entries["Bar.Shut"]? = some "\"shut\"") &&
        decide (entries["Cafe\u0301.Open"]? = some "0") &&
        decide (Substitution.replace entries "Cafe\u0301.Open" = "Cafe\u0301.Open")) = true := by
    decide +kernel
  obtain ⟨analysis, hanalysis, hfacts⟩ := exists_ok_of_any hcheck
  obtain ⟨entries, hrow, hentries⟩ := (Option.any_eq_true _ _).mp hfacts
  simp only [Bool.and_eq_true, decide_eq_true_eq, and_assoc] at hentries
  exact ⟨analysis, entries, hanalysis, hrow, hentries⟩

theorem Analysis.replace_token_iff_cafes : ∃ analysis entries,
    ofModules .empty true cafes = .ok analysis ∧
      analysis.table["/cafes.ts"]? = some entries ∧
      Substitution.replace entries "Bar.Shut" = "\"shut\"" := by
  obtain ⟨analysis, entries, hanalysis, hrow, hentry, -⟩ := exists_entries_of_cafes
  obtain ⟨name, member, haccess, -, hmember, hreplace⟩ :=
    replace_token_iff isRead_of_mem_cafes hanalysis _ _ hrow _ _ hentry
  have hsame : ReplacementTable.token "Bar" "Shut" = "Bar.Shut" := by decide
  obtain ⟨rfl, -⟩ := ReplacementTable.token_inj hmember
    (by decide +kernel : isPlainName "Shut" = true) (haccess.symm.trans hsame.symm)
  exact ⟨analysis, entries, hanalysis, hrow, hreplace.mpr (by decide +kernel)⟩

/-- The name with the mark is a whole name for the source, but the scanner ends its run before the
mark: the table has an entry, and the access in the source stays as it is. -/
theorem Analysis.replace_token_ne_cafes : (∀ module ∈ cafes, module.IsRead) ∧
    ∃ analysis entries, ofModules .empty true cafes = .ok analysis ∧
      analysis.table["/cafes.ts"]? = some entries ∧
      entries["Cafe\u0301.Open"]? = some "0" ∧
      Substitution.replace entries "Cafe\u0301.Open" ≠ "0" := by
  obtain ⟨analysis, entries, hanalysis, hrow, -, hentry, hreplace⟩ := exists_entries_of_cafes
  refine ⟨isRead_of_mem_cafes, analysis, entries, hanalysis, hrow, hentry, ?_⟩
  rw [hreplace]
  decide

end EnumInline
