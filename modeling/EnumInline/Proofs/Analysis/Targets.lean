import EnumInline.Proofs.Analysis.Order
import EnumInline.Proofs.Binding.Resolution

/-!
Declarations that bindings stand for are declarations that the modules make.
The statements of a module are gone through twice, once for the enums that it
declares and once for the names that it exports; both find the same exported
enums. A declared export therefore names an entry of the index, and what
bindings hand on to each other stays in it.
-/

namespace EnumInline

open KeyedList

def ExportStatement.declaredName? : ExportStatement → Option String
  | .declared name => some name
  | _ => none

namespace SourceModule

/-- A module that is what some source has been read as. -/
def IsRead (module : SourceModule) : Prop :=
  ∃ path source, read path source = .ok (.parsed module)

def declaredExports (module : SourceModule) : List String :=
  module.exports.filterMap ExportStatement.declaredName?

/-- The names of the enums of a module that are marked as exported. -/
def exportedEnums (module : SourceModule) : List String :=
  (module.enums.filter Enum.Declaration.isExported).map Enum.Declaration.name

theorem IsRead.exists_items {module : SourceModule} (h : module.IsRead) :
    ∃ path items, module = ofItems path items := by
  obtain ⟨path, source, hread⟩ := h
  exact ⟨path, exists_items_of_read hread⟩

theorem IsRead.identified {module : SourceModule} (h : module.IsRead) :
    module.Identified := by
  obtain ⟨path, source, hread⟩ := h
  exact identified_of_read hread

/-- A statement declares an exported enum for both or for neither. -/
theorem declaredName?_ofItem (item : TypeScript.Item) :
    (ExportStatement.ofItem item).filterMap ExportStatement.declaredName? =
      ((Enum.Declaration.ofItem? item).toList.filter
        Enum.Declaration.isExported).map Enum.Declaration.name := by
  cases item with
  | «enum» exported declaration =>
    cases hconst : declaration.isConst <;> cases exported <;>
      simp [ExportStatement.ofItem, Enum.Declaration.ofItem?, hconst,
        ExportStatement.declaredName?]
  | exportNames source names =>
    simp only [ExportStatement.ofItem, List.filterMap_map]
    apply List.filterMap_eq_nil_iff.mpr
    intro pair _
    cases source <;> rfl
  | exportDefault value => cases value <;> rfl
  | _ => rfl

theorem declaredExports_ofItems (path : String) (items : List TypeScript.Item) :
    (ofItems path items).declaredExports = (ofItems path items).exportedEnums := by
  unfold declaredExports exportedEnums ofItems ExportStatement.ofItems
    Enum.Declaration.ofItems
  induction items with
  | nil => rfl
  | cons item rest ih =>
    rw [List.flatMap_cons, List.filterMap_append, declaredName?_ofItem]
    dsimp only at ih ⊢
    rw [ih]
    cases hitem : Enum.Declaration.ofItem? item with
    | none => simp [List.filterMap_cons_none hitem]
    | some declaration =>
      simp [List.filterMap_cons_some hitem, List.filter_cons]
      split <;> simp

theorem IsRead.declaredExports_eq {module : SourceModule} (h : module.IsRead) :
    module.declaredExports = module.exportedEnums := by
  obtain ⟨path, items, rfl⟩ := h.exists_items
  exact declaredExports_ofItems path items

/-- Modules that a table cannot tell apart have one id. -/
theorem IsRead.id_eq {module other : SourceModule} (h : module.IsRead)
    (hother : other.IsRead)
    (hkey : ModuleId.tableKey module.path = ModuleId.tableKey other.path) :
    module.id = other.id := by
  have hpath : Path.normalize module.path = Path.normalize other.path := hkey
  rw [h.identified, hother.identified, ModuleId.ofPath, ModuleId.ofPath, hpath]

end SourceModule

section Targets

variable {resolver : Resolver} {modules : List SourceModule}

theorem Enum.Index.mem_ofModules {module : SourceModule}
    {declaration : Enum.Declaration} (hmodule : module ∈ modules)
    (hdeclaration : declaration ∈ module.enums) :
    (⟨module.id, declaration.name⟩ : DeclarationKey) ∈ ofModules modules := by
  have hentry : ((⟨module.id, declaration.name⟩ : DeclarationKey), declaration) ∈
      modules.flatMap entriesOf :=
    List.mem_flatMap.mpr ⟨module, hmodule,
      List.mem_map.mpr ⟨declaration, hdeclaration, rfl⟩⟩
  obtain ⟨last, hlast⟩ := exists_lastFor hentry
  exact mem_iff_exists.mpr ⟨last, getElem?_foldl_insert.mpr hlast⟩

theorem Enum.Index.exists_module_of_getElem? {key : DeclarationKey}
    {declaration : Enum.Declaration} (h : (ofModules modules)[key]? = some declaration) :
    ∃ module ∈ modules, declaration ∈ module.enums := by
  obtain ⟨module, hmodule, hentry⟩ := List.mem_flatMap.mp (getElem?_foldl_insert.mp h).mem
  obtain ⟨own, hown, heq⟩ := List.mem_map.mp hentry
  cases heq
  exact ⟨module, hmodule, hown⟩

variable (hread : ∀ module ∈ modules, module.IsRead)

include hread

theorem BindingFacts.IsFact.mem_index {binding : Binding} {key : DeclarationKey}
    (h : IsFact resolver (Enum.Index.ofModules modules) modules binding
      (.declared key)) : key ∈ Enum.Index.ofModules modules := by
  obtain ⟨earlier, id, _, later, hclauses, hstates, -⟩ := h
  cases hstates with
  | ofDeclaration hdeclared => exact hdeclared
  | @declaration name =>
    have hclause : (id, .exporting (.declared name)) ∈ clauses modules := by
      simp [hclauses]
    obtain ⟨module, hmodule, rfl, hstatement⟩ := mem_clauses_exporting.mp hclause
    have hname : name ∈ module.declaredExports :=
      List.mem_filterMap.mpr ⟨.declared name, hstatement, rfl⟩
    rw [(hread module hmodule).declaredExports_eq] at hname
    obtain ⟨declaration, hdeclaration, rfl⟩ := List.mem_map.mp hname
    exact Enum.Index.mem_ofModules hmodule (List.mem_filter.mp hdeclaration).1

theorem BindingFacts.Reaches.mem_index {binding : Binding} {key : DeclarationKey}
    (h : Reaches resolver (Enum.Index.ofModules modules) modules binding key) :
    key ∈ Enum.Index.ofModules modules := by
  induction h with
  | declared hfact => exact hfact.mem_index hread
  | awaits _ _ ih => exact ih

theorem BindingGraph.mem_index_of_resolved {binding : Binding}
    {key : DeclarationKey}
    (h : (build resolver (.ofModules modules) modules).resolved[binding]? =
      some key) : key ∈ Enum.Index.ofModules modules :=
  (reaches_of_resolved h).mem_index hread

/-- A qualifier that means an enum means one of the project. -/
theorem Enum.Evaluation.mem_index_of_qualified {module qualifier : String}
    {key : DeclarationKey}
    (h : qualified (.ofModules modules)
      (BindingGraph.build resolver (.ofModules modules) modules) module qualifier =
        .ok (some key)) : key ∈ Enum.Index.ofModules modules := by
  unfold qualified at h
  dsimp only at h
  split at h
  case isTrue hmem =>
    cases h
    exact hmem
  case isFalse =>
    split at h
    case isTrue =>
      exact BindingGraph.mem_index_of_resolved hread (Except.ok.inj h)
    case isFalse => cases h

/-- The enums that a file knows are enums of the project. -/
theorem ReplacementTable.mem_index_of_known {inlineLocal : Bool}
    {module : SourceModule} (hmodule : module ∈ modules)
    {enum : String × DeclarationKey}
    (h : enum ∈ known (BindingGraph.build resolver (.ofModules modules) modules)
      inlineLocal module) : enum.2 ∈ Enum.Index.ofModules modules := by
  rcases List.mem_append.mp h with hown | himport
  · split at hown
    case isTrue =>
      obtain ⟨declaration, hdeclaration, rfl⟩ := List.mem_map.mp hown
      exact Enum.Index.mem_ofModules hmodule hdeclaration
    case isFalse => simp at hown
  · exact BindingGraph.mem_index_of_resolved hread (mem_importsOf.mp himport)

end Targets

theorem BindingGraph.exists_module_of_importTarget? {resolver : Resolver}
    {index : Enum.Index} {modules : List SourceModule} {id name : String}
    {target : DeclarationKey}
    (h : (build resolver index modules).importTarget? id name = some target) :
    ∃ module ∈ modules, module.id = id := by
  obtain ⟨fact, hfact⟩ := exists_fact_of_importTarget? h
  obtain ⟨module, hmodule, hentry⟩ := hfact.exists_module
  exact ⟨module, hmodule, (BindingFacts.module_of_mem_ofModule _ hentry).symm⟩

/-- An import that a file can write is in the table, whichever of the files with
its key is written last: files with one key have one id. -/
theorem ReplacementTable.exists_entry_of_writesImported {index : Enum.Index}
    {bindings : BindingGraph} {values : Enum.Values} {inlineLocal : Bool}
    {modules : List SourceModule} (hread : ∀ module ∈ modules, module.IsRead)
    {module : SourceModule} (hmodule : module ∈ modules) {access text : String}
    (h : WritesImported index bindings values module access text) :
    ∃ entries, (build index bindings values inlineLocal modules).entriesForPath?
        module.path = some entries ∧ entries[access]? = some text := by
  have hentry : IsEntry index bindings values inlineLocal module access text :=
    Or.inl h
  have hfull : (entriesOf index bindings values inlineLocal module).isEmpty =
      false :=
    entriesOf_isEmpty_eq_false_iff.mpr ⟨access, text, hentry⟩
  have hrow : (ModuleId.tableKey module.path,
      entriesOf index bindings values inlineLocal module) ∈
        modules.flatMap (rowsOf index bindings values inlineLocal) :=
    List.mem_flatMap.mpr ⟨module, hmodule, mem_rowsOf.mpr ⟨rfl, rfl, hfull⟩⟩
  obtain ⟨last, hlast⟩ := exists_lastFor hrow
  refine ⟨last, ?_, ?_⟩
  · rw [entriesForPath?, build_eq_foldl]
    exact getElem?_foldl_insert.mpr hlast
  · obtain ⟨other, hother, hmem⟩ := List.mem_flatMap.mp hlast.mem
    obtain ⟨hkey, rfl, _⟩ := mem_rowsOf.mp hmem
    have hid : other.id = module.id := (hread other hother).id_eq
      (hread module hmodule) hkey
    obtain ⟨name, target, htarget, hwrites⟩ := h
    exact getElem?_entriesOf.mpr (Or.inl ⟨name, target, by rwa [hid], hwrites⟩)

/-- The declared exports of a module are its exported enums, and every binding
that stands for something stands for an enum of the project. So a qualifier never
means an unknown enum, no file knows an unknown enum, and an imported enum with a
member that has a value and a plain name has an entry in the table of each file
that imports it. -/
theorem Analysis.targets_declared (resolver : Resolver)
    {modules : List SourceModule} (hread : ∀ module ∈ modules, module.IsRead)
    (values : Enum.Values) (inlineLocal : Bool) :
    let index := Enum.Index.ofModules modules
    let bindings := BindingGraph.build resolver index modules
    let table := ReplacementTable.build index bindings values inlineLocal modules
    (∀ module ∈ modules, module.exports.filterMap ExportStatement.declaredName? =
      (module.enums.filter Enum.Declaration.isExported).map
        Enum.Declaration.name) ∧
    (∀ (binding : Binding) (key : DeclarationKey),
      bindings.resolved[binding]? = some key → key ∈ index) ∧
    (∀ module qualifier key,
      Enum.Evaluation.qualified index bindings module qualifier =
        .ok (some key) → key ∈ index) ∧
    (∀ module ∈ modules, ∀ enum ∈
      ReplacementTable.known bindings inlineLocal module, enum.2 ∈ index) ∧
    (∀ id name target declaration member value,
      bindings.importTarget? id name = some target →
      index[target]? = some declaration → declaration.hasMember member = true →
      Text.isPlainName member = true →
      values[(⟨target, member⟩ : MemberKey)]? = some value →
      (∃ module ∈ modules, module.id = id) ∧
      ∀ module ∈ modules, module.id = id →
        ∃ entries, table.entriesForPath? module.path = some entries ∧
          entries[ReplacementTable.token name member]? = some value.text) := by
  refine ⟨fun module hmodule => (hread module hmodule).declaredExports_eq,
    fun binding key => BindingGraph.mem_index_of_resolved hread,
    fun module qualifier key => Enum.Evaluation.mem_index_of_qualified hread,
    fun module hmodule enum => ReplacementTable.mem_index_of_known hread hmodule,
    ?_⟩
  intro id name target declaration member value htarget hindex hmember hplain hvalue
  refine ⟨BindingGraph.exists_module_of_importTarget? htarget, ?_⟩
  rintro module hmodule rfl
  exact ReplacementTable.exists_entry_of_writesImported hread hmodule
    ⟨name, target, htarget, declaration, member, value, hindex, hmember, hplain,
      hvalue, rfl, rfl⟩

/-- Two files of one module, and a file that imports from it. -/
def wardrobe : List SourceModule :=
  [⟨"/size.ts", "/size", [⟨"Size", true, [⟨"Small", .literal none (.string "s")⟩]⟩,
      ⟨"Cut", false, [⟨"Wide", .implicit⟩]⟩], [], [.declared "Size"]⟩,
    ⟨"/size.tsx", "/size", [⟨"Fit", true, [⟨"Slim", .literal none (.string "f")⟩]⟩],
      [], [.declared "Fit"]⟩,
    ⟨"/shop.ts", "/shop", [],
      [⟨"./size", [⟨"Size", "S"⟩, ⟨"Fit", "Fit"⟩]⟩], []⟩]

theorem isRead_of_mem_wardrobe : ∀ module ∈ wardrobe, module.IsRead := by
  intro module hmodule
  simp only [wardrobe, List.mem_cons, List.not_mem_nil, or_false] at hmodule
  rcases hmodule with rfl | rfl | rfl
  · exact ⟨"/size.ts",
      "export const enum Size \x7b Small = \"s\" \x7d\nconst enum Cut \x7b Wide \x7d",
      by decide +kernel⟩
  · exact ⟨"/size.tsx", "export declare const enum Fit \x7b Slim = \"f\" \x7d",
      by decide +kernel⟩
  · exact ⟨"/shop.ts", "import \x7b Size as S, Fit \x7d from \"./size\";",
      by decide +kernel⟩

def wardrobeResolver : Resolver := ⟨.ofList (wardrobe.map (·.id)), [], none⟩

def wardrobeBindings : BindingGraph :=
  .build wardrobeResolver (.ofModules wardrobe) wardrobe

def wardrobeValues : Enum.Values :=
  (Enum.evaluate (.ofModules wardrobe) wardrobeBindings).toOption.getD ∅

theorem Analysis.targets_declared_wardrobe :
    (∀ module ∈ wardrobe, module.IsRead) ∧
      (⟨"/size", "Cut"⟩ : DeclarationKey) ∈ Enum.Index.ofModules wardrobe ∧
      ∃ entries, (ReplacementTable.build (.ofModules wardrobe) wardrobeBindings
          wardrobeValues true wardrobe).entriesForPath? "/shop.ts" =
            some entries ∧
        entries["Fit.Slim"]? = some "\"f\"" := by
  obtain ⟨_, _, _, hknown, hentries⟩ :=
    targets_declared wardrobeResolver isRead_of_mem_wardrobe wardrobeValues true
  refine ⟨isRead_of_mem_wardrobe, ?_, ?_⟩
  · exact hknown _ (List.mem_cons_self ..) ("Cut", ⟨"/size", "Cut"⟩)
      (by decide +kernel)
  · obtain ⟨_, hentry⟩ := hentries "/shop" "Fit" ⟨"/size", "Fit"⟩
      ⟨"Fit", true, [⟨"Slim", .literal none (.string "f")⟩]⟩ "Slim"
      (.ofLiteral (.string "f")) (by decide +kernel) (by decide +kernel)
      (by decide +kernel) (by decide +kernel) (by decide +kernel)
    have hmem : (⟨"/shop.ts", "/shop", [],
        [⟨"./size", [⟨"Size", "S"⟩, ⟨"Fit", "Fit"⟩]⟩], []⟩ : SourceModule) ∈
          wardrobe := by
      simp [wardrobe]
    have htoken : ReplacementTable.token "Fit" "Slim" = "Fit.Slim" := by
      decide +kernel
    have hvalue : (MemberValue.ofLiteral (.string "f")).text = "\"f\"" := by
      decide +kernel
    rw [htoken, hvalue] at hentry
    have hshop := hentry _ hmem
    exact hshop rfl

end EnumInline
