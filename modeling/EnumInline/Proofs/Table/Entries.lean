import EnumInline.Proofs.KeyedList
import EnumInline.Proofs.Substitution.Occurrence
import EnumInline.Table.Build

/-!
What the table of a project holds, said without the order in which it is
filled. A file has an entry for each member that it can write: of the enums
that it imports, and of those of its own of which no import hides the access.
An access tells the name of the enum and the name of the member apart, so two
different members never compete for one entry.
-/

namespace EnumInline.ReplacementTable

open KeyedList

section Tokens

theorem isPlainName_iff {name : String} : Text.isPlainName name = true ↔
    name.toList.head?.any Text.startsToken = true ∧
      name.toList.all Text.continuesToken = true := by
  unfold Text.isPlainName
  split
  case h_1 hnil => simp [hnil]
  case h_2 first rest hname =>
    rw [hname, List.all_cons, List.head?_cons, Option.any_some]
    simp only [Bool.and_eq_true]
    constructor
    · rintro ⟨hfirst, hrest⟩
      exact ⟨hfirst, Substitution.continuesToken_of_startsToken hfirst, hrest⟩
    · rintro ⟨hfirst, _, hrest⟩
      exact ⟨hfirst, hrest⟩

theorem point_not_mem_of_isPlainName {member : String}
    (h : Text.isPlainName member = true) : '.' ∉ member.toList := by
  intro hpoint
  have hcontinues := List.all_eq_true.mp (isPlainName_iff.mp h).2 _ hpoint
  rw [Substitution.continuesToken_point] at hcontinues
  cases hcontinues

/-- What stands after the last mark of a list is found from the list. -/
theorem append_cons_inj_of_not_mem {α : Type} {mark : α}
    {first second after later : List α} (hafter : mark ∉ after)
    (hlater : mark ∉ later)
    (h : first ++ mark :: after = second ++ mark :: later) :
    first = second ∧ after = later := by
  rcases List.append_eq_append_iff.mp h with ⟨rest, hsecond, hrest⟩ |
      ⟨rest, hfirst, hrest⟩
  · cases rest with
    | nil => simpa using And.intro hsecond.symm hrest
    | cons head rest =>
      obtain ⟨_, rfl⟩ := List.cons.inj hrest
      simp at hafter
  · cases rest with
    | nil => simpa [eq_comm] using And.intro hfirst hrest
    | cons head rest =>
      obtain ⟨_, rfl⟩ := List.cons.inj hrest
      simp at hlater

/-- An access to a plain name says which member of which enum it means. -/
theorem token_inj {name other member same : String}
    (hmember : Text.isPlainName member = true)
    (hsame : Text.isPlainName same = true)
    (h : token name member = token other same) : name = other ∧ member = same := by
  have hchars : name.toList ++ '.' :: member.toList =
      other.toList ++ '.' :: same.toList := by
    simpa [token] using congrArg String.toList h
  obtain ⟨hname, hrest⟩ := append_cons_inj_of_not_mem
    (point_not_mem_of_isPlainName hmember) (point_not_mem_of_isPlainName hsame)
    hchars
  exact ⟨String.toList_inj.mp hname, String.toList_inj.mp hrest⟩

end Tokens

section Meaning

variable (index : Enum.Index) (bindings : BindingGraph) (values : Enum.Values)

/-- A file that knows the enum `key` under `name` can write `access` for a
member of it, whose value has the text `text`. -/
def Writes (name : String) (key : DeclarationKey) (access text : String) : Prop :=
  ∃ declaration member value, index[key]? = some declaration ∧
    declaration.hasMember member = true ∧ Text.isPlainName member = true ∧
    values[(⟨key, member⟩ : MemberKey)]? = some value ∧
    access = token name member ∧ text = value.text

/-- An import of the module leads to an enum with such a member. -/
def WritesImported (module : SourceModule) (access text : String) : Prop :=
  ∃ name target, bindings.importTarget? module.id name = some target ∧
    Writes index values name target access text

/-- An enum that the file declares has such a member. -/
def WritesOwn (module : SourceModule) (access text : String) : Prop :=
  ∃ declaration ∈ module.enums,
    Writes index values declaration.name ⟨module.id, declaration.name⟩ access text

/-- The entries of a file. Those of its imports hide those of its own enums. -/
def IsEntry (inlineLocal : Bool) (module : SourceModule)
    (access text : String) : Prop :=
  WritesImported index bindings values module access text ∨
    (inlineLocal = true ∧
      (∀ hidden, ¬ WritesImported index bindings values module access hidden) ∧
      WritesOwn index values module access text)

end Meaning

variable {index : Enum.Index} {bindings : BindingGraph} {values : Enum.Values}
  {inlineLocal : Bool} {module : SourceModule} {modules : List SourceModule}

/-- The entries for the members of an enum that a file knows under a name, in
the order of their declaration. -/
def written (index : Enum.Index) (values : Enum.Values)
    (known : String × DeclarationKey) : List (String × String) :=
  match index[known.2]? with
  | none => []
  | some declaration =>
      ((values.membersOf known.2 declaration).filter fun entry =>
        Text.isPlainName entry.1).map fun entry =>
          (token known.1 entry.1, entry.2.text)

theorem mem_written {known : String × DeclarationKey} {access text : String} :
    (access, text) ∈ written index values known ↔
      Writes index values known.1 known.2 access text := by
  unfold written
  cases hindex : index[known.2]? with
  | none => simp [Writes, hindex]
  | some declaration =>
    simp only [List.mem_map, List.mem_filter, Enum.Values.membersOf,
      List.mem_filterMap, Option.map_eq_some_iff, Prod.exists, Prod.mk.injEq]
    constructor
    · rintro ⟨name, value, ⟨⟨member, hmember, found, hvalue, rfl, rfl⟩, hplain⟩,
        rfl, rfl⟩
      exact ⟨declaration, member.name, found, hindex,
        List.any_eq_true.mpr ⟨member, hmember, by simp⟩, hplain, hvalue, rfl, rfl⟩
    · rintro ⟨same, name, value, hsame, hname, hplain, hvalue, rfl, rfl⟩
      obtain rfl := Option.some.inj (hindex.symm.trans hsame)
      obtain ⟨member, hmember, heq⟩ := List.any_eq_true.mp hname
      obtain rfl : member.name = name := by simpa using heq
      exact ⟨member.name, value, ⟨⟨member, hmember, value, hvalue, rfl, rfl⟩,
        hplain⟩, rfl, rfl⟩

theorem addDeclaration_eq_foldl {entries : Entries} {name : String}
    {key : DeclarationKey} {declaration : Enum.Declaration} :
    addDeclaration values entries name key declaration =
      (((values.membersOf key declaration).filter fun entry =>
        Text.isPlainName entry.1).map fun entry =>
          (token name entry.1, entry.2.text)).foldl
        (fun entries (access, text) => entries.insert access text) entries := by
  rw [List.foldl_map, List.foldl_filter]
  rfl

/-- The enums that a file knows, each with the name by which it does; those of
its imports come last. -/
def known (bindings : BindingGraph) (inlineLocal : Bool) (module : SourceModule) :
    List (String × DeclarationKey) :=
  (if inlineLocal then ownNames module else []) ++ bindings.importsOf module.id

theorem entriesOf_eq_foldl :
    entriesOf index bindings values inlineLocal module =
      ((known bindings inlineLocal module).flatMap (written index values)).foldl
        (fun entries (access, text) => entries.insert access text) ∅ := by
  rw [List.foldl_flatMap]
  change List.foldl _ ∅ (known bindings inlineLocal module) = _
  congr 1
  funext entries known
  change (match index[known.2]? with
    | none => entries
    | some declaration =>
        addDeclaration values entries known.1 known.2 declaration) = _
  unfold written
  cases index[known.2]? with
  | none => rfl
  | some declaration => exact addDeclaration_eq_foldl

theorem mem_importsOf {name : String} {target : DeclarationKey} {id : String} :
    (name, target) ∈ bindings.importsOf id ↔
      bindings.importTarget? id name = some target := by
  unfold BindingGraph.importsOf BindingGraph.importTarget?
  rw [List.mem_filterMap, ← Std.ExtTreeMap.mem_toList_iff_getElem?_eq_some]
  constructor
  · rintro ⟨⟨binding, key⟩, hmem, hname⟩
    cases binding with
    | exported key => cases hname
    | imported key =>
      by_cases hmodule : key.module = id
      · simp only [hmodule, if_true] at hname
        cases hname
        subst hmodule
        exact hmem
      · simp [hmodule] at hname
  · intro hmem
    exact ⟨(.imported ⟨id, name⟩, target), hmem, by simp⟩

theorem mem_written_imports {access text : String} :
    (access, text) ∈
        (bindings.importsOf module.id).flatMap (written index values) ↔
      WritesImported index bindings values module access text := by
  simp only [List.mem_flatMap, mem_written, Prod.exists, mem_importsOf,
    WritesImported]

theorem mem_written_ownNames {access text : String} :
    (access, text) ∈ (ownNames module).flatMap (written index values) ↔
      WritesOwn index values module access text := by
  simp only [List.mem_flatMap, mem_written, ownNames, List.mem_map,
    WritesOwn]
  constructor
  · rintro ⟨_, ⟨declaration, hmem, rfl⟩, hwrites⟩
    exact ⟨declaration, hmem, hwrites⟩
  · rintro ⟨declaration, hmem, hwrites⟩
    exact ⟨_, ⟨declaration, hmem, rfl⟩, hwrites⟩

/-- An access to a plain name is written with the enum that it names. -/
theorem Writes.of_token {name other member text : String} {key : DeclarationKey}
    (hmember : Text.isPlainName member = true)
    (h : Writes index values other key (token name member) text) :
    name = other ∧ ∃ declaration value, index[key]? = some declaration ∧
      declaration.hasMember member = true ∧
      values[(⟨key, member⟩ : MemberKey)]? = some value ∧ text = value.text := by
  obtain ⟨declaration, same, value, hindex, hname, hplain, hvalue, haccess, rfl⟩ := h
  obtain ⟨rfl, rfl⟩ := token_inj hmember hplain haccess
  exact ⟨rfl, declaration, value, hindex, hname, hvalue, rfl⟩

/-- One enum does not write two texts for an access. -/
theorem Writes.unique {name other : String} {key same : DeclarationKey}
    {access text hidden : String}
    (h : Writes index values name key access text)
    (hother : Writes index values other same access hidden)
    (hkey : name = other → key = same) : text = hidden := by
  obtain ⟨_, member, value, _, _, hplain, hvalue, rfl, rfl⟩ := h
  obtain ⟨hname, _, found, _, _, hfound, rfl⟩ := hother.of_token hplain
  obtain rfl := hkey hname
  rw [Option.some.inj (hvalue.symm.trans hfound)]

theorem WritesImported.unique {access text hidden : String}
    (h : WritesImported index bindings values module access text)
    (hother : WritesImported index bindings values module access hidden) :
    text = hidden := by
  obtain ⟨name, target, htarget, hwrites⟩ := h
  obtain ⟨other, same, hsame, hwritten⟩ := hother
  apply hwrites.unique hwritten
  rintro rfl
  exact Option.some.inj (htarget.symm.trans hsame)

theorem WritesOwn.unique {access text hidden : String}
    (h : WritesOwn index values module access text)
    (hother : WritesOwn index values module access hidden) : text = hidden := by
  obtain ⟨declaration, _, hwrites⟩ := h
  obtain ⟨other, _, hwritten⟩ := hother
  apply hwrites.unique hwritten
  intro hname
  rw [hname]

/-- The map of a file has the entries of the file. -/
theorem getElem?_entriesOf {access text : String} :
    (entriesOf index bindings values inlineLocal module)[access]? = some text ↔
      IsEntry index bindings values inlineLocal module access text := by
  rw [entriesOf_eq_foldl, getElem?_foldl_insert, known, List.flatMap_append,
    lastFor_append]
  have himports : LastFor
      ((bindings.importsOf module.id).flatMap (written index values)) access text ↔
      WritesImported index bindings values module access text := by
    rw [lastFor_iff_mem, mem_written_imports]
    intro access text hidden
    simp only [mem_written_imports]
    exact WritesImported.unique
  have hown : LastFor ((ownNames module).flatMap (written index values)) access
      text ↔ WritesOwn index values module access text := by
    rw [lastFor_iff_mem, mem_written_ownNames]
    intro access text hidden
    simp only [mem_written_ownNames]
    exact WritesOwn.unique
  have hhides : (∀ entry ∈
      (bindings.importsOf module.id).flatMap (written index values),
        entry.1 ≠ access) ↔
      ∀ hidden, ¬ WritesImported index bindings values module access hidden := by
    constructor
    · intro hnone hidden hwrites
      exact hnone (access, hidden) (mem_written_imports.mpr hwrites) rfl
    · rintro hnone ⟨same, hidden⟩ hmem rfl
      exact hnone hidden (mem_written_imports.mp hmem)
  rw [himports, hhides, IsEntry]
  cases inlineLocal with
  | false => simp [not_lastFor_nil]
  | true => simp [hown, and_comm]

theorem entriesOf_isEmpty_eq_false_iff :
    (entriesOf index bindings values inlineLocal module).isEmpty = false ↔
      ∃ access text,
        IsEntry index bindings values inlineLocal module access text := by
  rw [Std.ExtTreeMap.isEmpty_eq_false_iff,
    Std.ExtTreeMap.eq_empty_iff_forall_not_mem, Classical.not_forall]
  simp only [Classical.not_not, mem_iff_exists, getElem?_entriesOf]

/-- What a module adds to the table. -/
def rowsOf (index : Enum.Index) (bindings : BindingGraph) (values : Enum.Values)
    (inlineLocal : Bool) (module : SourceModule) : List (String × Entries) :=
  let entries := entriesOf index bindings values inlineLocal module
  if entries.isEmpty then [] else [(ModuleId.tableKey module.path, entries)]

theorem build_eq_foldl :
    build index bindings values inlineLocal modules =
      (modules.flatMap (rowsOf index bindings values inlineLocal)).foldl
        (fun table (path, entries) => table.insert path entries) ∅ := by
  rw [List.foldl_flatMap, build]
  congr 1
  funext table module
  unfold rowsOf
  dsimp only
  split <;> rfl

theorem mem_rowsOf {path : String} {entries : Entries} :
    (path, entries) ∈ rowsOf index bindings values inlineLocal module ↔
      ModuleId.tableKey module.path = path ∧
        entriesOf index bindings values inlineLocal module = entries ∧
        entries.isEmpty = false := by
  unfold rowsOf
  dsimp only
  split
  case isTrue hempty =>
    simp only [List.not_mem_nil, false_iff]
    rintro ⟨_, rfl, hfull⟩
    rw [hfull] at hempty
    cases hempty
  case isFalse hfull =>
    simp only [List.mem_singleton, Prod.mk.injEq]
    constructor
    · rintro ⟨rfl, rfl⟩
      exact ⟨rfl, rfl, by simpa using hfull⟩
    · rintro ⟨rfl, rfl, _⟩
      exact ⟨rfl, rfl⟩

/-- Modules with different table keys do not replace each other's rows. -/
theorem rowsOf_keysApart
    (hkeys : (modules.map fun module => ModuleId.tableKey module.path).Nodup) :
    KeysApart (rowsOf index bindings values inlineLocal) modules := by
  refine (List.pairwise_map.mp hkeys).imp ?_
  rintro first second hne ⟨path, entries⟩ hrow ⟨other, more⟩ hother heq
  apply hne
  rw [(mem_rowsOf.mp hrow).1, (mem_rowsOf.mp hother).1]
  exact heq

theorem lastFor_rowsOf {path : String} {entries : Entries} :
    LastFor (rowsOf index bindings values inlineLocal module) path entries ↔
      (path, entries) ∈ rowsOf index bindings values inlineLocal module := by
  apply lastFor_iff_mem
  intro same row other hrow hother
  exact (mem_rowsOf.mp hrow).2.1.symm.trans (mem_rowsOf.mp hother).2.1

/-- The table has a row for each file with an entry. -/
theorem getElem?_build
    (hkeys : (modules.map fun module => ModuleId.tableKey module.path).Nodup)
    {path : String} {entries : Entries} :
    (build index bindings values inlineLocal modules)[path]? = some entries ↔
      ∃ module ∈ modules, ModuleId.tableKey module.path = path ∧
        entriesOf index bindings values inlineLocal module = entries ∧
        entries.isEmpty = false := by
  rw [build_eq_foldl, getElem?_foldl_insert, lastFor_flatMap (rowsOf_keysApart hkeys)]
  simp only [lastFor_rowsOf, mem_rowsOf]

theorem exists_written_of_entry {path access text : String} {entries : Entries}
    (hrow : (build index bindings values inlineLocal modules)[path]? = some entries)
    (hentry : entries[access]? = some text) :
    ∃ module ∈ modules, ∃ enum ∈ known bindings inlineLocal module,
      Writes index values enum.1 enum.2 access text := by
  rw [build_eq_foldl, getElem?_foldl_insert] at hrow
  obtain ⟨module, hmodule, hmem⟩ := List.mem_flatMap.mp hrow.mem
  obtain ⟨-, rfl, -⟩ := mem_rowsOf.mp hmem
  rw [entriesOf_eq_foldl, getElem?_foldl_insert] at hentry
  obtain ⟨enum, henum, hwritten⟩ := List.mem_flatMap.mp hentry.mem
  exact ⟨module, hmodule, enum, henum, mem_written.mp hwritten⟩

theorem exists_value_of_entry {path access text : String} {entries : Entries}
    (hrow : (build index bindings values inlineLocal modules)[path]? = some entries)
    (hentry : entries[access]? = some text) : ∃ value : MemberValue, text = value.text := by
  obtain ⟨_, -, _, -, hwrites⟩ := exists_written_of_entry hrow hentry
  obtain ⟨_, _, value, -, -, -, -, -, htext⟩ := hwrites
  exact ⟨value, htext⟩

/-- The table of a project is exactly the table of the entries of its files: it
has no other entries, and no file without an entry. -/
theorem build_entries_exact (index : Enum.Index) (bindings : BindingGraph)
    (values : Enum.Values) (inlineLocal : Bool)
    (hkeys : (modules.map fun module => ModuleId.tableKey module.path).Nodup) :
    (∀ path access text,
      (∃ entries,
        (build index bindings values inlineLocal modules)[path]? = some entries ∧
          entries[access]? = some text) ↔
        ∃ module ∈ modules, ModuleId.tableKey module.path = path ∧
          IsEntry index bindings values inlineLocal module access text) ∧
      ∀ path, path ∈ build index bindings values inlineLocal modules ↔
        ∃ module ∈ modules, ModuleId.tableKey module.path = path ∧
          ∃ access text,
            IsEntry index bindings values inlineLocal module access text := by
  constructor
  · intro path access text
    simp only [getElem?_build hkeys]
    constructor
    · rintro ⟨entries, ⟨module, hmem, hpath, rfl, _⟩, hentry⟩
      exact ⟨module, hmem, hpath, getElem?_entriesOf.mp hentry⟩
    · rintro ⟨module, hmem, hpath, hentry⟩
      exact ⟨_, ⟨module, hmem, hpath, rfl,
        entriesOf_isEmpty_eq_false_iff.mpr ⟨access, text, hentry⟩⟩,
        getElem?_entriesOf.mpr hentry⟩
  · intro path
    simp only [mem_iff_exists, getElem?_build hkeys]
    constructor
    · rintro ⟨entries, module, hmem, hpath, rfl, hfull⟩
      exact ⟨module, hmem, hpath, entriesOf_isEmpty_eq_false_iff.mp hfull⟩
    · rintro ⟨module, hmem, hpath, hentry⟩
      exact ⟨_, module, hmem, hpath, rfl,
        entriesOf_isEmpty_eq_false_iff.mpr hentry⟩

/-- A module that exports an enum, and one that imports it twice, once under the
name of an enum of its own. -/
def outfits : List SourceModule :=
  [⟨"/size.ts", "/size",
      [⟨"Size", true, [⟨"Small", .literal none (.string "s")⟩]⟩], [],
      [.declared "Size"]⟩,
    ⟨"/shop.ts", "/shop",
      [⟨"Size", false, [⟨"Small", .literal none (.string "small")⟩,
        ⟨"Wide", .literal none (.string "wide")⟩,
        ⟨"extra-wide", .literal none (.string "extra")⟩]⟩],
      [⟨"./size", [⟨"Size", "Size"⟩, ⟨"Size", "Fit"⟩]⟩], []⟩]

def outfitIndex : Enum.Index := .ofModules outfits

def outfitBindings : BindingGraph :=
  .build ⟨.ofList (outfits.map (·.id)), [], none⟩ outfitIndex outfits

def outfitValues : Enum.Values :=
  (Enum.evaluate outfitIndex outfitBindings).toOption.getD ∅

theorem build_entries_exact_outfits :
    (outfits.map fun module => ModuleId.tableKey module.path).Nodup ∧
      (∃ module ∈ outfits, ModuleId.tableKey module.path = "/shop.ts" ∧
        IsEntry outfitIndex outfitBindings outfitValues true module "Fit.Small"
          "\"s\"") ∧
      (∃ module ∈ outfits, ModuleId.tableKey module.path = "/shop.ts" ∧
        IsEntry outfitIndex outfitBindings outfitValues true module "Size.Wide"
          "\"wide\"") ∧
      ¬ ∃ module ∈ outfits, ModuleId.tableKey module.path = "/shop.ts" ∧
        IsEntry outfitIndex outfitBindings outfitValues true module "Size.Small"
          "\"small\"" := by
  have hkeys :
      (outfits.map fun module => ModuleId.tableKey module.path).Nodup := by
    decide +kernel
  obtain ⟨hentries, _⟩ :=
    build_entries_exact outfitIndex outfitBindings outfitValues true hkeys
  have hfind : (build outfitIndex outfitBindings outfitValues true
      outfits)["/shop.ts"]?.map (fun entries =>
        (entries["Fit.Small"]?, entries["Size.Small"]?, entries["Size.Wide"]?)) =
      some (some "\"s\"", some "\"s\"", some "\"wide\"") := by
    decide +kernel
  obtain ⟨entries, hrow, hfound⟩ := Option.map_eq_some_iff.mp hfind
  simp only [Prod.mk.injEq] at hfound
  obtain ⟨hfit, hsmall, hwide⟩ := hfound
  refine ⟨hkeys, (hentries _ _ _).mp ⟨entries, hrow, hfit⟩,
    (hentries _ _ _).mp ⟨entries, hrow, hwide⟩, fun hown => ?_⟩
  obtain ⟨same, hsame, htext⟩ := (hentries _ _ _).mpr hown
  obtain rfl := Option.some.inj (hrow.symm.trans hsame)
  rw [hsmall] at htext
  exact absurd htext (by decide)

end EnumInline.ReplacementTable
