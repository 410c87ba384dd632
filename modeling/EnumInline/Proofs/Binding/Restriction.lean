import EnumInline.Proofs.Binding.Resolution
import EnumInline.Proofs.Propagation.Restriction
import EnumInline.Proofs.Resolution.Extension
import Mathlib.Data.List.Sort

/-!
What one more module changes in the bindings of a project to whose other modules
it means nothing. The bindings of the others do not wait for those of the added
module, so they are a part of the graph and get the declarations that they get
without it.
-/

namespace EnumInline

open KeyedList

/-- The specifier of a statement that passes on names of another module. -/
def ExportStatement.specifier? : ExportStatement → Option String
  | .reexport source _ _ | .star source => some source
  | .declared _ | .ofLocal _ _ => none

/-- The specifiers through which a module speaks of other modules. -/
def SourceModule.specifiers (module : SourceModule) : List String :=
  module.imports.map ImportStatement.source ++
    module.exports.filterMap ExportStatement.specifier?

theorem SourceModule.mem_specifiers_of_import {module : SourceModule}
    {statement : ImportStatement} (h : statement ∈ module.imports) :
    statement.source ∈ module.specifiers :=
  List.mem_append_left _ (List.mem_map_of_mem h)

theorem SourceModule.mem_specifiers_of_export {module : SourceModule}
    {statement : ExportStatement} (h : statement ∈ module.exports)
    {specifier : String} (hspecifier : statement.specifier? = some specifier) :
    specifier ∈ module.specifiers :=
  List.mem_append_right _ (List.mem_filterMap.mpr ⟨statement, h, hspecifier⟩)

/-- A key of another module. -/
def DeclarationKey.isOutside (added : String) (key : DeclarationKey) : Bool :=
  key.module != added

/-- A binding of another module. -/
def Binding.isOutside (added : String) (binding : Binding) : Bool :=
  binding.key.isOutside added

theorem DeclarationKey.isOutside_iff {added : String} {key : DeclarationKey} :
    key.isOutside added = true ↔ key.module ≠ added := by
  simp [isOutside]

theorem DeclarationKey.isOutside_eq_false_iff {added : String}
    {key : DeclarationKey} : key.isOutside added = false ↔ key.module = added := by
  simp [isOutside]

/-- A module that is added to others between `earlier` and `later`, and to which
no specifier of the others leads. -/
structure Unrelated (resolver : Resolver) (earlier later : List SourceModule)
    (added : SourceModule) : Prop where
  ids : ∀ module ∈ earlier ++ later, module.id ≠ added.id
  specifiers : ∀ module ∈ earlier ++ later, ∀ specifier ∈ module.specifiers,
    resolver.resolve specifier module.id ≠ added.id

section Index

variable {earlier later : List SourceModule} {added : SourceModule}

theorem mem_of_id_ne {module : SourceModule}
    (hmodule : module ∈ earlier ++ added :: later) (hne : module.id ≠ added.id) :
    module ∈ earlier ++ later := by
  simp only [List.mem_append, List.mem_cons] at hmodule ⊢
  rcases hmodule with hearlier | rfl | hlater
  · exact Or.inl hearlier
  · exact absurd rfl hne
  · exact Or.inr hlater

theorem Enum.Index.ofModules_restrict
    (hids : ∀ module ∈ earlier ++ later, module.id ≠ added.id) :
    ofModules (earlier ++ later) =
      restrict (DeclarationKey.isOutside added.id)
        (ofModules (earlier ++ added :: later)) := by
  apply foldl_insert_restrict
  · intro entry hentry
    exact DeclarationKey.isOutside_eq_false_iff.mpr
      (module_of_mem_entriesOf entry hentry)
  · intro other hother entry hentry
    rw [DeclarationKey.isOutside_iff, module_of_mem_entriesOf entry hentry]
    exact hids other hother

end Index

namespace BindingFacts

section Statements

variable {resolver : Resolver} {index : Enum.Index} {module : SourceModule}
  {binding : Binding}

theorem module_of_declared {key : DeclarationKey}
    (h : (binding, .declared key) ∈ ofModule resolver index module) :
    key.module = module.id := by
  rcases List.mem_append.mp h with hexport | himport
  · obtain ⟨statement, _, hfact⟩ := List.mem_filterMap.mp hexport
    cases statement with
    | declared name =>
      cases hfact
      rfl
    | ofLocal localName exported =>
      simp only [ofExport?, Option.some.injEq, Prod.mk.injEq] at hfact
      obtain ⟨_, hfact⟩ := hfact
      split at hfact
      · cases hfact
        rfl
      · cases hfact
    | reexport source imported exported => cases hfact
    | star source => cases hfact
  · obtain ⟨statement, _, hnames⟩ := List.mem_flatMap.mp himport
    obtain ⟨name, _, hfact⟩ := List.mem_map.mp hnames
    cases hfact

/-- A binding of a module follows one of the same module, or one of a module to
which a specifier leads. -/
theorem module_of_follows {target : Binding}
    (h : (binding, .follows target) ∈ ofModule resolver index module) :
    target.key.module = module.id ∨ ∃ specifier ∈ module.specifiers,
      target.key.module = resolver.resolve specifier module.id := by
  rcases List.mem_append.mp h with hexport | himport
  · obtain ⟨statement, hstatement, hfact⟩ := List.mem_filterMap.mp hexport
    cases statement with
    | declared name => cases hfact
    | ofLocal localName exported =>
      simp only [ofExport?, Option.some.injEq, Prod.mk.injEq] at hfact
      obtain ⟨_, hfact⟩ := hfact
      split at hfact
      · cases hfact
      · cases hfact
        exact Or.inl rfl
    | reexport source imported exported =>
      cases hfact
      exact Or.inr
        ⟨source, SourceModule.mem_specifiers_of_export hstatement rfl, rfl⟩
    | star source => cases hfact
  · obtain ⟨statement, hstatement, hnames⟩ := List.mem_flatMap.mp himport
    obtain ⟨name, _, hfact⟩ := List.mem_map.mp hnames
    cases hfact
    exact Or.inr
      ⟨statement.source, SourceModule.mem_specifiers_of_import hstatement, rfl⟩

end Statements

section Restriction

variable {small large : Resolver} {index whole : Enum.Index}
  {earlier later : List SourceModule} {added : SourceModule}
  (hextends : small.Extends large added.id)
  (hunrelated : Unrelated large earlier later added)
  (hindex : index = restrict (DeclarationKey.isOutside added.id) whole)

include hextends hunrelated hindex

/-- The other modules state the facts that they state without the
added module. -/
theorem ofModule_eq {module : SourceModule} (hmodule : module ∈ earlier ++ later) :
    ofModule small index module = ofModule large whole module := by
  have hresolve {specifier : String} (h : specifier ∈ module.specifiers) :
      small.resolve specifier module.id = large.resolve specifier module.id :=
    hextends.resolve_eq (hunrelated.specifiers module hmodule specifier h)
  have hexports : module.exports.filterMap (ofExport? small index module.id) =
      module.exports.filterMap (ofExport? large whole module.id) := by
    apply List.filterMap_congr
    intro statement hstatement
    cases statement with
    | declared name => rfl
    | ofLocal localName exported =>
      have hown : (⟨module.id, localName⟩ : DeclarationKey) ∈ index ↔
          ⟨module.id, localName⟩ ∈ whole := by
        rw [hindex, mem_restrict, DeclarationKey.isOutside_iff]
        exact and_iff_right (hunrelated.ids module hmodule)
      simp only [ofExport?, hown]
    | reexport source imported exported =>
      have hsource : source ∈ module.specifiers :=
        SourceModule.mem_specifiers_of_export hstatement rfl
      simp only [ofExport?, hresolve hsource]
    | star source => rfl
  have himports : module.imports.flatMap (ofImport small module.id) =
      module.imports.flatMap (ofImport large module.id) := by
    apply List.flatMap_congr
    intro statement hstatement
    have hsource : statement.source ∈ module.specifiers :=
      SourceModule.mem_specifiers_of_import hstatement
    simp only [ofImport, hresolve hsource]
  rw [ofModule, ofModule, hexports, himports]

theorem own_restrict :
    (ofModules small index (earlier ++ later)).own =
      restrict (Binding.isOutside added.id)
        (ofModules large whole (earlier ++ added :: later)).own := by
  have hfacts : (earlier ++ later).flatMap (ofModule small index) =
      (earlier ++ later).flatMap (ofModule large whole) := by
    apply List.flatMap_congr
    intro module hmodule
    exact ofModule_eq hextends hunrelated hindex hmodule
  rw [ofModules, hfacts]
  apply foldl_insert_restrict
  · intro entry hentry
    exact DeclarationKey.isOutside_eq_false_iff.mpr
      (module_of_mem_ofModule entry hentry)
  · intro other hother entry hentry
    rw [Binding.isOutside, DeclarationKey.isOutside_iff,
      module_of_mem_ofModule entry hentry]
    exact hunrelated.ids other hother

omit hindex in
theorem isStar_iff {importer source : String} :
    IsStar small (earlier ++ later) importer source ↔
      IsStar large (earlier ++ added :: later) importer source ∧
        importer ≠ added.id := by
  have hresolve {module : SourceModule} (hmodule : module ∈ earlier ++ later)
      {specifier : String} (h : .star specifier ∈ module.exports) :
      small.resolve specifier module.id = large.resolve specifier module.id := by
    apply hextends.resolve_eq
    apply hunrelated.specifiers module hmodule
    exact SourceModule.mem_specifiers_of_export h rfl
  constructor
  · rintro ⟨module, hmodule, rfl, specifier, hstar, rfl⟩
    refine ⟨⟨module, ?_, rfl, specifier, hstar, (hresolve hmodule hstar).symm⟩,
      hunrelated.ids module hmodule⟩
    simp only [List.mem_append, List.mem_cons] at hmodule ⊢
    exact hmodule.imp_right Or.inr
  · rintro ⟨⟨module, hmodule, rfl, specifier, hstar, rfl⟩, hne⟩
    have hother := mem_of_id_ne hmodule hne
    exact ⟨module, hother, rfl, specifier, hstar, hresolve hother hstar⟩

omit hindex in
theorem stars_restrict :
    (ofModules small index (earlier ++ later)).stars.toList =
      (ofModules large whole (earlier ++ added :: later)).stars.toList.filter
        fun star => star.importer != added.id := by
  have hirrefl : Std.Irrefl fun first second : StarExport =>
      compare first second = .lt :=
    ⟨fun _ h => by simp at h⟩
  have hantisymm : Std.Antisymm fun first second : StarExport =>
      compare first second = .lt :=
    ⟨fun first second h hother => by
      have hgt := Std.OrientedCmp.gt_of_lt hother
      rw [h] at hgt
      cases hgt⟩
  apply List.Pairwise.eq_of_mem_iff Std.ExtTreeSet.ordered_toList
    (Std.ExtTreeSet.ordered_toList.filter _)
  rintro ⟨source, importer⟩
  simp only [List.mem_filter, Std.ExtTreeSet.mem_toList, mem_stars,
    isStar_iff hextends hunrelated, bne_iff_ne]

end Restriction

end BindingFacts

namespace BindingGraph

open BindingFacts

section Edges

variable {facts whole : BindingFacts} {added : String}
  (hown : facts.own = restrict (Binding.isOutside added) whole.own)

include hown

theorem seeds_restrict :
    seeds facts = (seeds whole).filter fun seed => seed.1.isOutside added := by
  rw [seeds, seeds, hown, toList_restrict]
  apply filterMap_filter_of_kept
  rintro ⟨binding, fact⟩ seed hseed
  cases fact with
  | declared key =>
    cases hseed
    rfl
  | follows target => cases hseed

theorem getD_followersOf_restrict {target : Binding} :
    (followersOf facts).getD target [] =
      ((followersOf whole).getD target []).filter (Binding.isOutside added) := by
  rw [getD_followersOf, getD_followersOf, hown, toList_restrict]
  apply valuesFor_filter
  rintro ⟨binding, fact⟩ key value hedge
  cases fact with
  | declared key => cases hedge
  | follows target =>
    cases hedge
    rfl

/-- The export of `importer` to which a name goes on. -/
def forward? (facts : BindingFacts) (name importer : String) : Option Binding :=
  if facts.isExplicit ⟨importer, name⟩ then none else some (.exported ⟨importer, name⟩)

theorem forward?_eq {name importer : String} (hne : importer ≠ added) :
    forward? facts name importer = forward? whole name importer := by
  have hexplicit : facts.isExplicit ⟨importer, name⟩ =
      whole.isExplicit ⟨importer, name⟩ := by
    have hmem : .exported ⟨importer, name⟩ ∈ facts.own ↔
        .exported ⟨importer, name⟩ ∈ whole.own := by
      rw [hown, mem_restrict, Binding.isOutside, DeclarationKey.isOutside_iff]
      exact and_iff_right hne
    rw [Bool.eq_iff_iff]
    simpa [isExplicit] using hmem
  rw [forward?, forward?, hexplicit]

variable (hstars : facts.stars.toList =
  whole.stars.toList.filter fun star => star.importer != added)

include hstars

theorem forwarded_restrict {target : Binding} :
    forwarded facts (starImportersOf facts) target =
      (forwarded whole (starImportersOf whole) target).filter
        (Binding.isOutside added) := by
  cases target with
  | imported key => rfl
  | exported key =>
    have himporters : (starImportersOf facts).getD key.module [] =
        ((starImportersOf whole).getD key.module []).filter
          fun importer => importer != added := by
      rw [getD_starImportersOf, getD_starImportersOf, hstars]
      apply valuesFor_filter
      intro star source importer hstar
      cases hstar
      rfl
    have hkept (importer : String) (binding : Binding)
        (h : forward? whole key.name importer = some binding) :
        (importer != added) = binding.isOutside added := by
      unfold forward? at h
      split at h
      · cases h
      · cases h
        rfl
    by_cases hname : key.name = "default"
    · simp [forwarded, hname]
    · simp only [forwarded, hname, if_false, himporters]
      refine Eq.trans ?_ (filterMap_filter_of_kept hkept)
      apply List.filterMap_congr
      intro importer himporter
      have hne : importer ≠ added := by simpa using (List.mem_filter.mp himporter).2
      exact forward?_eq hown hne

theorem dependents_restrict {target : Binding} :
    (propagation facts).dependents target =
      ((propagation whole).dependents target).filter (Binding.isOutside added) := by
  change (followersOf facts).getD target [] ++
    forwarded facts (starImportersOf facts) target = _
  rw [getD_followersOf_restrict hown, forwarded_restrict hown hstars,
    ← List.filter_append]
  rfl

end Edges

section Build

variable {small large : Resolver} {index whole : Enum.Index}
  {earlier later : List SourceModule} {added : SourceModule}

/-- A binding of another module does not wait for one of the added module. -/
theorem isOutside_of_awaits (hunrelated : Unrelated large earlier later added)
    {binding target : Binding}
    (h : Awaits large whole (earlier ++ added :: later) binding target)
    (hbinding : binding.isOutside added.id = true) :
    target.isOutside added.id = true := by
  rw [Binding.isOutside, DeclarationKey.isOutside_iff] at hbinding ⊢
  cases h with
  | fact hfact =>
    obtain ⟨module, hmodule, hentry⟩ := hfact.exists_module
    have hid : binding.key.module = module.id := module_of_mem_ofModule _ hentry
    rw [hid] at hbinding
    rcases module_of_follows hentry with hown | ⟨specifier, hspecifier, htarget⟩
    · rwa [hown]
    · rw [htarget]
      exact hunrelated.specifiers module (mem_of_id_ne hmodule hbinding) specifier
        hspecifier
  | star hstar _ _ =>
    obtain ⟨module, hmodule, rfl, specifier, hexport, rfl⟩ := hstar
    apply hunrelated.specifiers module (mem_of_id_ne hmodule hbinding)
    exact SourceModule.mem_specifiers_of_export hexport rfl

variable (hextends : small.Extends large added.id)
  (hunrelated : Unrelated large earlier later added)
  (hindex : index = restrict (DeclarationKey.isOutside added.id) whole)

include hextends hunrelated hindex

theorem propagation_isPart :
    (propagation (ofModules small index (earlier ++ later))).IsPart
      (propagation (ofModules large whole (earlier ++ added :: later)))
      (Binding.isOutside added.id) where
  dependents _ _ :=
    dependents_restrict (own_restrict hextends hunrelated hindex)
      (stars_restrict hextends hunrelated)
  outside target htarget := by
    rw [List.filter_eq_nil_iff]
    intro binding hbinding hkept
    have hawaits := mem_dependents.mp hbinding
    rw [isOutside_of_awaits hunrelated hawaits hkept] at htarget
    cases htarget
  derive _ _ := rfl

/-- The bindings of the other modules get the declarations that they get without
the added module. -/
theorem resolved_restrict :
    (build small index (earlier ++ later)).resolved =
      restrict (Binding.isOutside added.id)
        (build large whole (earlier ++ added :: later)).resolved := by
  have hseeds := seeds_restrict (own_restrict hextends hunrelated hindex)
  have hnodes : (propagation (ofModules small index (earlier ++ later))).Encloses
      (seeds (ofModules small index (earlier ++ later)))
      (candidates (ofModules small index (earlier ++ later))) :=
    candidates_enclose
  have hlength : (candidates (ofModules small index (earlier ++ later))).length ≤
      size (ofModules small index (earlier ++ later)) +
        (seeds (ofModules small index (earlier ++ later))).length :=
    length_candidates_le
  rw [hseeds] at hnodes hlength
  have hpart := Propagation.propagate_of_part
    (propagation_isPart hextends hunrelated hindex) candidates_enclose hnodes
    length_candidates_le hlength propagate_eq_resolved
  rw [← hseeds, propagate_eq_resolved] at hpart
  exact Except.ok.inj hpart

omit hextends hunrelated hindex in
theorem exists_module_of_reaches {resolver : Resolver} {modules : List SourceModule}
    {binding : Binding} {key : DeclarationKey}
    (h : Reaches resolver index modules binding key) :
    ∃ module ∈ modules, key.module = module.id := by
  induction h with
  | declared hfact =>
    obtain ⟨module, hmodule, hentry⟩ := hfact.exists_module
    exact ⟨module, hmodule, module_of_declared hentry⟩
  | awaits _ _ ih => exact ih

/-- What a binding of another module stands for is in another module too. -/
theorem isOutside_of_resolved {binding : Binding} {key : DeclarationKey}
    (hbinding : binding.isOutside added.id = true)
    (h : (build large whole (earlier ++ added :: later)).resolved[binding]? =
      some key) : key.isOutside added.id = true := by
  rw [← getElem?_restrict_of_keep hbinding,
    ← resolved_restrict hextends hunrelated hindex] at h
  obtain ⟨module, hmodule, hkey⟩ := exists_module_of_reaches (reaches_of_resolved h)
  rw [DeclarationKey.isOutside_iff, hkey]
  exact hunrelated.ids module hmodule

end Build

end BindingGraph

end EnumInline
