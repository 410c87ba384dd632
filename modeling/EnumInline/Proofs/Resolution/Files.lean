import EnumInline.Proofs.Analysis.Order
import EnumInline.Proofs.Path.Lexical

/-!
Which specifiers lead to a file. A module is known by the path of its file without the
extension, and an extension is taken off the path in a specifier as well, that of a
source file or that of the file it is compiled to. So every file is found by its path.
What is taken off is not asked for, however: where a module is named without its
extension, and the name that is left ends like an extension, that is taken off too.
-/

namespace EnumInline

open Text

namespace ModuleId

/-- No extension of a source file is the end of one of a compiled file, and none of
these the end of one of those. -/
theorem extensions_apart : ∀ source ∈ sourceExtensions, ∀ compiled ∈ compiledExtensions,
    ¬ source.toList <:+ compiled.toList ∧ ¬ compiled.toList <:+ source.toList := by
  decide

theorem eq_of_suffix_compiled : ∀ first ∈ compiledExtensions, ∀ second ∈ compiledExtensions,
    first.toList <:+ second.toList ∨ second.toList <:+ first.toList → first = second := by
  decide

theorem isEnding_of_mem {extension : String}
    (h : extension ∈ sourceExtensions ++ compiledExtensions) :
    Path.IsEnding extension.toList := by
  have hall : (sourceExtensions ++ compiledExtensions).all (fun extension =>
      extension.toList.all (fun c => c != '/' && c != '\\') &&
        extension.toList.any (· != '.')) = true := by
    decide
  simp only [List.all_eq_true, List.any_eq_true, Bool.and_eq_true, bne_iff_ne] at hall
  exact ⟨(hall extension h).1, (hall extension h).2⟩

/-- What is left of a path without its extension can be the path of a file. -/
def IsStem (stem : List Char) : Prop := stem ≠ [] ∧ stem.getLast? ≠ some '/'

variable {extensions : List String} {extension compiled : String} {path stem : List Char}

theorem dropExtension?_some (h : dropExtension? extensions path = some stem) :
    IsStem stem ∧ ∃ extension ∈ extensions, path = stem ++ extension.toList := by
  obtain ⟨hfound, hstem⟩ := Option.filter_eq_some_iff.1 h
  obtain ⟨extension, hmem, hdrop⟩ := List.exists_of_findSome?_eq_some hfound
  refine ⟨?_, extension, hmem, dropEnd?_eq_some_iff.1 hdrop⟩
  simpa [IsStem] using hstem

theorem dropExtension?_eq_none
    (h : ∀ extension ∈ extensions, ¬ extension.toList <:+ path) :
    dropExtension? extensions path = none := by
  have hfound : extensions.findSome? (fun extension => dropEnd? extension.toList path) = none :=
    List.findSome?_eq_none_iff.2 fun extension hmem => dropEnd?_eq_none_iff.2 (h extension hmem)
  simp only [dropExtension?, hfound, Option.filter_none]

/-- A path has no extension of a list if it ends in one that is apart from all of these. -/
theorem dropExtension?_of_apart (h : ∀ other ∈ extensions,
    ¬ extension.toList <:+ other.toList ∧ ¬ other.toList <:+ extension.toList) :
    dropExtension? extensions (stem ++ extension.toList) = none := by
  apply dropExtension?_eq_none
  intro other hmem hsuffix
  obtain ⟨hnot, hnot'⟩ := h other hmem
  rcases List.suffix_or_suffix_of_suffix hsuffix (List.suffix_append stem extension.toList) with
    hshort | hlong
  · exact hnot' hshort
  · exact hnot hlong

theorem dropExtension?_compiled_of_source (h : extension ∈ sourceExtensions) :
    dropExtension? compiledExtensions (stem ++ extension.toList) = none :=
  dropExtension?_of_apart (extensions_apart extension h)

theorem dropExtension?_source_of_compiled (h : compiled ∈ compiledExtensions) :
    dropExtension? sourceExtensions (stem ++ compiled.toList) = none :=
  dropExtension?_of_apart fun extension hmem => (extensions_apart extension hmem compiled h).symm

theorem dropExtension?_compiled (h : compiled ∈ compiledExtensions) (hstem : IsStem stem) :
    dropExtension? compiledExtensions (stem ++ compiled.toList) = some stem := by
  have hdrop : dropEnd? compiled.toList (stem ++ compiled.toList) = some stem :=
    dropEnd?_eq_some_iff.2 rfl
  have hfound : compiledExtensions.findSome?
      (fun extension => dropEnd? extension.toList (stem ++ compiled.toList)) = some stem := by
    cases hfirst : compiledExtensions.findSome?
        (fun extension => dropEnd? extension.toList (stem ++ compiled.toList)) with
    | none => cases hdrop.symm.trans (List.findSome?_eq_none_iff.1 hfirst compiled h)
    | some found =>
      obtain ⟨extension, hmem, hother⟩ := List.exists_of_findSome?_eq_some hfirst
      have hsuffix : extension.toList <:+ stem ++ compiled.toList :=
        ⟨found, (dropEnd?_eq_some_iff.1 hother).symm⟩
      obtain rfl := eq_of_suffix_compiled extension hmem compiled h
        (List.suffix_or_suffix_of_suffix hsuffix (List.suffix_append stem compiled.toList))
      rw [← hother, hdrop]
  simp only [dropExtension?, hfound]
  exact Option.filter_eq_some_iff.2 ⟨rfl, by simpa [IsStem] using hstem⟩

theorem exists_eq_append {path : String}
    (h : dropExtension? extensions path.toList = some stem) :
    ∃ extension ∈ extensions, path = String.ofList stem ++ extension := by
  obtain ⟨-, extension, hmem, hpath⟩ := dropExtension?_some h
  refine ⟨extension, hmem, String.toList_inj.1 ?_⟩
  rw [String.toList_append, String.toList_ofList, hpath]

theorem stripSourceExtension_cases (path : String) :
    stripSourceExtension path = path ∨ IsStem (stripSourceExtension path).toList ∧
      ∃ extension ∈ sourceExtensions, path = stripSourceExtension path ++ extension := by
  cases hdrop : dropExtension? sourceExtensions path.toList with
  | none => exact Or.inl (by simp [stripSourceExtension, onChars, hdrop])
  | some stem =>
    have hstem : stripSourceExtension path = String.ofList stem := by
      simp [stripSourceExtension, onChars, hdrop]
    rw [hstem, String.toList_ofList]
    exact Or.inr ⟨(dropExtension?_some hdrop).1, exists_eq_append hdrop⟩

/-- A path with the extension of a source file is the same module whether a file or a
specifier has it. -/
theorem stripSpecifierExtension_of_source {place : String} (h : extension ∈ sourceExtensions) :
    stripSpecifierExtension (place ++ extension) = stripSourceExtension (place ++ extension) := by
  simp only [stripSpecifierExtension, stripSourceExtension, onChars, String.toList_append,
    dropExtension?_compiled_of_source h, Option.or_none]

theorem stripSpecifierExtension_of_compiled {place : String}
    (h : compiled ∈ compiledExtensions) (hplace : IsStem place.toList) :
    stripSpecifierExtension (place ++ compiled) = place := by
  simp only [stripSpecifierExtension, onChars, String.toList_append,
    dropExtension?_source_of_compiled h, dropExtension?_compiled h hplace, Option.none_or,
    Option.getD_some, String.ofList_toList]

/-- A path ends in an extension, and the module of the file there is named without it. -/
structure Strips (path stem extension : String) : Prop where
  mem : extension ∈ sourceExtensions
  path_eq : path = stem ++ extension
  module_eq : Path.normalize path = ofPath path ++ extension

/-- What is left of a stripped path names a file. -/
theorem Strips.isStem {path stem : String} (h : Strips path stem extension) :
    IsStem (ofPath path).toList := by
  rcases stripSourceExtension_cases (Path.normalize path) with hsame | ⟨hstem, -⟩
  · have hempty : extension.toList = [] := by
      have hchars := congrArg String.toList h.module_eq
      rw [ofPath, hsame, String.toList_append] at hchars
      simpa using hchars
    obtain ⟨c, hc, -⟩ := (isEnding_of_mem (List.mem_append_left _ h.mem)).names
    simp [hempty] at hc
  · exact hstem

/-- The other extensions that the path can have in a specifier leave the same module. -/
theorem Strips.stripSpecifierExtension {path stem : String} (h : Strips path stem extension)
    (hcompiled : compiled ∈ compiledExtensions) :
    stripSpecifierExtension (Path.normalize (stem ++ compiled)) = ofPath path := by
  obtain ⟨place, hplace⟩ := Path.exists_normalize_append stem
  have hsource := hplace extension (isEnding_of_mem (List.mem_append_left _ h.mem))
  have hother := hplace compiled (isEnding_of_mem (List.mem_append_right _ hcompiled))
  rw [← h.path_eq, h.module_eq] at hsource
  have hstem : ofPath path = place := by
    have hchars := congrArg String.toList hsource
    rw [String.toList_append, String.toList_append] at hchars
    exact String.toList_inj.1 (List.append_cancel_right hchars)
  rw [hother, ← hstem]
  exact stripSpecifierExtension_of_compiled hcompiled h.isStem

theorem stripSpecifierExtension_cases (path : String) :
    stripSpecifierExtension path = path ∨
      ∃ extension ∈ sourceExtensions ++ compiledExtensions,
        path = stripSpecifierExtension path ++ extension := by
  cases hdrop : (dropExtension? sourceExtensions path.toList).or
      (dropExtension? compiledExtensions path.toList) with
  | none => exact Or.inl (by simp [stripSpecifierExtension, onChars, hdrop])
  | some stem =>
    have hstem : stripSpecifierExtension path = String.ofList stem := by
      simp [stripSpecifierExtension, onChars, hdrop]
    rw [hstem]
    right
    rcases Option.or_eq_some_iff.1 hdrop with hsource | ⟨-, hcompiled⟩
    · obtain ⟨extension, hmem, hpath⟩ := exists_eq_append hsource
      exact ⟨extension, List.mem_append_left _ hmem, hpath⟩
    · obtain ⟨extension, hmem, hpath⟩ := exists_eq_append hcompiled
      exact ⟨extension, List.mem_append_right _ hmem, hpath⟩

theorem length_stripSpecifierExtension_le (path : String) :
    (stripSpecifierExtension path).length ≤ path.length := by
  rcases stripSpecifierExtension_cases path with hsame | ⟨extension, -, hpath⟩
  · exact Nat.le_of_eq (congrArg String.length hsame)
  · have hlength := congrArg String.length hpath
    rw [String.length_append] at hlength
    omega

/-- No extension stands for the index of a directory. -/
theorem append_ne_index {stem : String}
    (h : extension ∈ sourceExtensions ++ compiledExtensions) :
    stem ++ extension ≠ Path.below stem "index" := by
  have hall : ∀ extension ∈ sourceExtensions ++ compiledExtensions,
      extension.toList ≠ "/index".toList := by
    decide
  intro hsame
  have hchars := congrArg String.toList hsame
  rw [Path.below, String.append_assoc, String.toList_append, String.toList_append] at hchars
  exact hall extension h (List.append_cancel_left hchars)

theorem normalize_of_index {path directory : String}
    (h : ofPath path = Path.below directory "index") :
    Path.normalize directory = directory := by
  have hending (extension : String) (hwhole : ∀ c ∈ extension.toList, c ≠ '/' ∧ c ≠ '\\') :
      Path.IsEnding ("index" ++ extension).toList := by
    rw [String.toList_append]
    refine ⟨List.forall_mem_append.2 ⟨by simp, hwhole⟩, 'i', ?_, by decide⟩
    exact List.mem_append_left _ (by simp)
  have hbelow (extension : String)
      (hpath : Path.normalize path = Path.below directory "index" ++ extension) :
      Path.normalize (Path.below directory ("index" ++ extension)) =
        Path.below directory ("index" ++ extension) := by
    have hsame : Path.below directory ("index" ++ extension) = Path.normalize path := by
      simp only [hpath, Path.below, String.append_assoc]
    rw [hsame, Path.normalize_normalize]
  rcases stripSourceExtension_cases (Path.normalize path) with
    hsame | ⟨-, extension, hmem, hpath⟩
  · refine Path.normalize_of_below (hending "" (by simp)) (hbelow "" ?_)
    rw [← h, ofPath, hsame, String.append_empty]
  · refine Path.normalize_of_below (hending extension ?_) (hbelow extension ?_)
    · exact (isEnding_of_mem (List.mem_append_left _ hmem)).whole
    · rw [← h]
      exact hpath

end ModuleId

namespace Resolver

variable {resolver : Resolver} {specifier importer path other id : String}

/-- A relative specifier in the module `importer` leads, by its text alone, to the place
of `path`. -/
structure Denotes (specifier importer path : String) : Prop where
  relative : isRelative specifier = true
  place_eq : Path.normalize (Path.below (Path.parent importer) specifier) = Path.normalize path

instance : Decidable (Denotes specifier importer path) :=
  decidable_of_iff
    (isRelative specifier = true ∧
      Path.normalize (Path.below (Path.parent importer) specifier) = Path.normalize path)
    ⟨fun h => ⟨h.1, h.2⟩, fun h => ⟨h.relative, h.place_eq⟩⟩

theorem moduleAt_congr (h : Path.normalize path = Path.normalize other) :
    resolver.moduleAt path = resolver.moduleAt other := by
  simp only [moduleAt, h]

theorem resolve_of_denotes (h : Denotes specifier importer path) :
    resolver.resolve specifier importer = resolver.moduleAt path := by
  rw [resolve, if_pos h.relative, moduleAt_congr h.place_eq]

theorem moduleAt_of_isKnown
    (hid : ModuleId.stripSpecifierExtension (Path.normalize path) = id)
    (hknown : resolver.isKnown id = true) : resolver.moduleAt path = id := by
  simp [moduleAt, hid, hknown]

/-- A path that is no known module and has no extension leads to the index below it. -/
theorem moduleAt_of_index
    (hid : ModuleId.stripSpecifierExtension (Path.normalize path) = id)
    (hunknown : resolver.isKnown id = false)
    (hindex : resolver.isKnown (Path.below id "index") = true) :
    resolver.moduleAt path = Path.below id "index" := by
  simp [moduleAt, hid, hunknown, hindex]

theorem moduleAt_cases (resolver : Resolver) (path : String) :
    let id := ModuleId.stripSpecifierExtension (Path.normalize path)
    resolver.moduleAt path = id ∨ resolver.moduleAt path = Path.below id "index" := by
  intro id
  unfold moduleAt
  dsimp only
  split
  · exact Or.inr rfl
  · exact Or.inl rfl

/-- A known module is found at its own path, unless that ends in an extension. -/
theorem moduleAt_eq_self_iff (hnormal : Path.normalize id = id)
    (hknown : resolver.isKnown id = true) :
    resolver.moduleAt id = id ↔ ModuleId.stripSpecifierExtension id = id := by
  constructor
  · intro hfound
    rcases ModuleId.stripSpecifierExtension_cases id with hsame | ⟨extension, hmem, hid⟩
    · exact hsame
    · have hcases := resolver.moduleAt_cases id
      rw [hnormal, hfound] at hcases
      rcases hcases with hsame | hindex
      · exact hsame.symm
      · exact absurd (hid.symm.trans hindex) (ModuleId.append_ne_index hmem)
  · intro hsame
    exact moduleAt_of_isKnown (by rw [hnormal, hsame]) hknown

/-- A known index is found at its directory, unless that ends in an extension. -/
theorem moduleAt_eq_index_iff {directory : String}
    (hnormal : Path.normalize directory = directory)
    (hunknown : resolver.isKnown directory = false)
    (hindex : resolver.isKnown (Path.below directory "index") = true) :
    resolver.moduleAt directory = Path.below directory "index" ↔
      ModuleId.stripSpecifierExtension directory = directory := by
  constructor
  · intro hfound
    have hcases := resolver.moduleAt_cases directory
    rw [hnormal, hfound] at hcases
    rcases hcases with hsame | hsame
    · have hlonger : directory.length < (Path.below directory "index").length := by
        have hindex : 0 < "/".length + "index".length := by decide
        rw [Path.below, String.length_append, String.length_append]
        omega
      have hshorter := ModuleId.length_stripSpecifierExtension_le directory
      rw [hsame] at hlonger
      omega
    · have hchars := congrArg String.toList hsame
      simp only [Path.below, String.toList_append, List.append_cancel_right_eq] at hchars
      exact (String.toList_inj.1 hchars).symm
  · intro hsame
    exact moduleAt_of_index (by rw [hnormal, hsame]) hunknown hindex

end Resolver

section Files

open Resolver

variable {aliases : Aliases} {modules : List SourceModule} {module : SourceModule}
  {path stem extension : String}

theorem Project.isKnown_resolverOf {id : String} :
    (resolverOf aliases modules).isKnown id = true ↔ ∃ module ∈ modules, module.id = id := by
  simp [isKnown, resolverOf, Std.ExtTreeSet.contains_ofList]

/-- A path that ends in an extension of source files leads to the module of the file
there, if there is one. -/
theorem Project.moduleAt_source (hextension : extension ∈ ModuleId.sourceExtensions)
    (hknown : (resolverOf aliases modules).isKnown (ModuleId.ofPath (stem ++ extension)) = true) :
    (resolverOf aliases modules).moduleAt (stem ++ extension) =
      ModuleId.ofPath (stem ++ extension) := by
  obtain ⟨place, hplace⟩ := Path.exists_normalize_append stem
  have hnormal := hplace extension (ModuleId.isEnding_of_mem (List.mem_append_left _ hextension))
  refine moduleAt_of_isKnown ?_ hknown
  rw [ModuleId.ofPath, hnormal, ModuleId.stripSpecifierExtension_of_source hextension]

/-- Files are found by their paths. A relative specifier that leads to a source file
of a project means the module of that file, and so does one that leads to where the
file would be with the extension of a compiled file in the place of its own. -/
theorem Project.resolve_file (hidentified : ∀ module ∈ modules, module.Identified)
    (hmodule : module ∈ modules)
    (hsource : ∃ extension ∈ ModuleId.sourceExtensions,
      extension.toList <:+ module.path.toList) (importer : String) :
    (∀ specifier, Denotes specifier importer module.path →
      (resolverOf aliases modules).resolve specifier importer =
        ModuleId.ofPath module.path) ∧
    ∀ stem extension, ModuleId.Strips module.path stem extension →
      ∀ compiled ∈ ModuleId.compiledExtensions, ∀ specifier,
        Denotes specifier importer (stem ++ compiled) →
        (resolverOf aliases modules).resolve specifier importer =
          ModuleId.ofPath module.path := by
  have hknown : (resolverOf aliases modules).isKnown (ModuleId.ofPath module.path) = true :=
    isKnown_resolverOf.2 ⟨module, hmodule, hidentified module hmodule⟩
  constructor
  · intro specifier hdenotes
    obtain ⟨extension, hextension, stem, hpath⟩ := hsource
    have hwhole : module.path = String.ofList stem ++ extension :=
      String.toList_inj.1 (by rw [String.toList_append, String.toList_ofList, hpath])
    rw [resolve_of_denotes hdenotes]
    rw [hwhole] at hknown ⊢
    exact moduleAt_source hextension hknown
  · intro stem extension hstrips compiled hcompiled specifier hdenotes
    rw [resolve_of_denotes hdenotes]
    exact moduleAt_of_isKnown (hstrips.stripSpecifierExtension hcompiled) hknown

/-- Files whose paths hold more than one extension, and the index of a directory with one. -/
def shelf : List SourceModule :=
  [⟨"/p/app.ts", "/p/app", [], [], []⟩, ⟨"/p/lib/a.b.d.ts", "/p/lib/a.b", [], [], []⟩,
    ⟨"/p/lib/index.mts", "/p/lib/index", [], [], []⟩,
    ⟨"/p/state.svelte.ts", "/p/state.svelte", [], [], []⟩,
    ⟨"/p/three.js/index.ts", "/p/three.js/index", [], [], []⟩,
    ⟨"/p/..ts", "/p/.", [], [], []⟩, ⟨"/index.ts", "/index", [], [], []⟩]

theorem Project.resolve_file_shelf :
    (resolverOf ⟨[], none⟩ shelf).resolve "./lib/../lib/a.b.d.ts" "/p/app" = "/p/lib/a.b" ∧
      (resolverOf ⟨[], none⟩ shelf).resolve "../lib/a.b.js" "/p/lib/index" = "/p/lib/a.b" := by
  have hid : ModuleId.ofPath "/p/lib/a.b.d.ts" = "/p/lib/a.b" := by decide +kernel
  have hfound := @Project.resolve_file ⟨[], none⟩ shelf
    ⟨"/p/lib/a.b.d.ts", "/p/lib/a.b", [], [], []⟩ (by decide +kernel) (by decide)
    ⟨".d.ts", by decide, by decide⟩
  rw [← hid]
  constructor
  · exact (hfound "/p/app").1 _ ⟨by decide, by decide +kernel⟩
  · exact (hfound "/p/lib/index").2 "/p/lib/a.b" ".d.ts"
      ⟨by decide, by decide, by decide +kernel⟩ ".js" (by decide) _
      ⟨by decide, by decide +kernel⟩

/-- Modules are found by their names, unless these end in an extension. A relative
specifier that leads to where a file would be without its extension means the module of
that file if no extension is left to take off; and one that leads to a directory means
the index there if the name of the directory has no extension to take off. -/
theorem Project.resolve_id_iff (hidentified : ∀ module ∈ modules, module.Identified)
    (hmodule : module ∈ modules) (importer : String) :
    (Path.normalize module.id = module.id → ∀ specifier,
      Denotes specifier importer module.id →
        ((resolverOf aliases modules).resolve specifier importer = module.id ↔
          ModuleId.stripSpecifierExtension module.id = module.id)) ∧
    ∀ directory, module.id = Path.below directory "index" →
      (∀ other ∈ modules, other.id ≠ directory) → ∀ specifier,
        Denotes specifier importer directory →
          ((resolverOf aliases modules).resolve specifier importer = module.id ↔
            ModuleId.stripSpecifierExtension directory = directory) := by
  have hknown : (resolverOf aliases modules).isKnown module.id = true :=
    isKnown_resolverOf.2 ⟨module, hmodule, rfl⟩
  constructor
  · intro hnormal specifier hdenotes
    rw [resolve_of_denotes hdenotes]
    exact moduleAt_eq_self_iff hnormal hknown
  · intro directory hindex hfree specifier hdenotes
    have hnormal : Path.normalize directory = directory :=
      ModuleId.normalize_of_index ((hidentified module hmodule).symm.trans hindex)
    have hunknown : (resolverOf aliases modules).isKnown directory = false := by
      rw [Bool.eq_false_iff, ne_eq, isKnown_resolverOf]
      rintro ⟨other, hother, hid⟩
      exact hfree other hother hid
    rw [resolve_of_denotes hdenotes]
    rw [hindex] at hknown ⊢
    exact moduleAt_eq_index_iff hnormal hunknown hknown

theorem Project.resolve_id_iff_shelf :
    (resolverOf ⟨[], none⟩ shelf).resolve "./lib/a.b" "/p/app" = "/p/lib/a.b" ∧
      (resolverOf ⟨[], none⟩ shelf).resolve "." "/p/lib/a.b" = "/p/lib/index" ∧
      (resolverOf ⟨[], none⟩ shelf).resolve "../three.js" "/p/lib/a.b" ≠
        "/p/three.js/index" := by
  have hidentified : ∀ module ∈ shelf, module.Identified := by decide +kernel
  have hfound := @Project.resolve_id_iff ⟨[], none⟩ shelf
    ⟨"/p/lib/a.b.d.ts", "/p/lib/a.b", [], [], []⟩ hidentified (by decide) "/p/app"
  have hlib := @Project.resolve_id_iff ⟨[], none⟩ shelf
    ⟨"/p/lib/index.mts", "/p/lib/index", [], [], []⟩ hidentified (by decide) "/p/lib/a.b"
  have hthree := @Project.resolve_id_iff ⟨[], none⟩ shelf
    ⟨"/p/three.js/index.ts", "/p/three.js/index", [], [], []⟩ hidentified (by decide) "/p/lib/a.b"
  refine ⟨?_, ?_, ?_⟩
  · exact (hfound.1 (by decide +kernel) _ ⟨by decide, by decide +kernel⟩).2 (by decide +kernel)
  · exact (hlib.2 "/p/lib" (by decide) (by decide) _ ⟨by decide, by decide +kernel⟩).2
      (by decide +kernel)
  · intro hsame
    have hstrip := (hthree.2 "/p/three.js" (by decide) (by decide) _
      ⟨by decide, by decide +kernel⟩).1 hsame
    exact absurd hstrip (by decide +kernel)

/-- Not every module is found by its name, nor every index by its directory. -/
theorem Project.resolve_shelf_ne :
    (∀ module ∈ shelf, module.Identified) ∧
      (∀ entry ∈ [("./state.svelte", "/p/state.svelte"), ("./.", "/p/.")],
        (∃ module ∈ shelf, module.id = entry.2) ∧ Denotes entry.1 "/p/app" entry.2 ∧
          (resolverOf ⟨[], none⟩ shelf).resolve entry.1 "/p/app" ≠ entry.2) ∧
      (∀ module ∈ shelf, module.id ≠ "/p/three.js" ∧ module.id ≠ "/") ∧
      (∃ module ∈ shelf, module.id = "/p/three.js/index") ∧
      Denotes "./three.js" "/p/app" "/p/three.js" ∧
      (resolverOf ⟨[], none⟩ shelf).resolve "./three.js" "/p/app" ≠ "/p/three.js/index" ∧
      (∃ module ∈ shelf, module.id = "/index") ∧ Denotes ".." "/p/app" "/" ∧
      (resolverOf ⟨[], none⟩ shelf).resolve ".." "/p/app" ≠ "/index" := by
  decide +kernel

end Files

end EnumInline
