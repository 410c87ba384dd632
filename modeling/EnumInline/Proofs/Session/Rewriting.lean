import EnumInline.Proofs.Analysis.Inlining
import EnumInline.Proofs.FileTree.Writing
import EnumInline.Proofs.Outcome
import EnumInline.Session

/-!
Analysing a project again after some of its files were rewritten. Which files are
gathered depends on the entries of the tree and not on the texts in them. If no file
of settings was rewritten, and each rewritten source still reads as the module it
was, with references that became literals, the second analysis finds the table of
the first.
-/

namespace EnumInline

variable {before after : FileTree}

namespace FileTree.Alike

variable (h : Alike before after)

include h

theorem map_entries :
    before.entries.map (fun _ => Entry.outline) = after.entries.map fun _ => Entry.outline := by
  apply Std.ExtTreeMap.ext_getElem?
  intro place
  rw [Std.ExtTreeMap.getElem?_map, Std.ExtTreeMap.getElem?_map]
  exact (h.entries place).symm

theorem size_entries : after.entries.size = before.entries.size := by
  have hsize := congrArg Std.ExtTreeMap.size h.map_entries
  simpa using hsize.symm

theorem isWay (place : Place) (names : List String) :
    after.isWay place names = before.isWay place names := by
  induction names generalizing place with
  | nil => rfl
  | cons name rest ih => simp only [FileTree.isWay, h.directory, ih]

theorem isLink (path : String) : after.isLink path = before.isLink path := by
  unfold FileTree.isLink
  simp only [origin, h.workingDirectory, h.follow]
  split
  next => rfl
  next name rest _ =>
    split
    next => rfl
    next directory _ =>
      rcases h.entry (directory ++ [name]) with hsame | ⟨_, _, hbefore, hafter⟩
      · rw [hsame]
      · rw [hbefore, hafter]

/-- Which files are gathered, and in which order, does not depend on their texts. -/
theorem gatherBelow (pattern : FilePattern) (excludes : List String) (place : Place) :
    Source.gatherBelow after pattern excludes place =
      Source.gatherBelow before pattern excludes place := by
  have hlist (tree : FileTree) : Source.gatherBelow tree pattern excludes place =
      (tree.entries.map fun _ => Entry.outline).toList.filterMap
        (Source.gathered? tree pattern excludes place) := by
    rw [Std.ExtTreeMap.toList_map, List.filterMap_map, Source.gatherBelow]
    congr 1
    funext ⟨there, entry⟩
    rcases entry with (text | size) | _ | target <;> rfl
  have hgathered : Source.gathered? after pattern excludes place =
      Source.gathered? before pattern excludes place := by
    funext ⟨there, entry⟩
    simp only [Source.gathered?, h.isWay]
  rw [hlist, hlist, h.map_entries, hgathered]

theorem gather (start pattern : String) (excludes : List String) :
    Source.gather after start pattern excludes =
      Source.gather before start pattern excludes := by
  unfold Source.gather
  simp only [h.locate, h.gatherBelow, h.isLink]
  congr 1
  funext pattern
  congr 1
  funext place
  rcases h.entry place with hsame | ⟨_, _, hbefore, hafter⟩
  · rw [hsame]
  · rw [hbefore, hafter]

end FileTree.Alike

/-- No file of settings is changed. -/
def KeepsSettings (before after : FileTree) : Prop :=
  ∀ path text, before.read path = .ok text → after.read path ≠ .ok text →
    Settings.read? text = none ∧ TsConfig.read? text = none

section Settings

variable (h : before.Alike after) (hkeeps : KeepsSettings before after)

include hkeeps

theorem TsConfig.readFile_rewritten (path : String) :
    Succeeds (readFile before path) (readFile after path) := by
  intro config hread
  unfold readFile at hread ⊢
  obtain ⟨text, hmapped, hconfig⟩ := ok_of_bind hread
  have hread := ok_of_mapError hmapped
  have hread' : after.read path = .ok text := by
    apply Classical.byContradiction
    intro hchanged
    simp only [(hkeeps _ _ hread hchanged).2] at hconfig
    cases hconfig
  rw [hread']
  exact hconfig

include h

theorem Settings.load_rewritten (root : String) :
    Succeeds (load before root) (load after root) := by
  intro found hload
  unfold load at hload ⊢
  dsimp only at hload ⊢
  rw [h.contains]
  split at hload
  next hcontains =>
    obtain ⟨text, hmapped, hfound⟩ := ok_of_bind hload
    have hread := ok_of_mapError hmapped
    have hread' : after.read (Path.join root fileName) = .ok text := by
      apply Classical.byContradiction
      intro hchanged
      simp only [(hkeeps _ _ hread hchanged).1] at hfound
      cases hfound
    rw [if_pos hcontains, hread']
    exact hfound
  next hcontains =>
    rw [if_neg hcontains]
    exact hload

theorem TsConfig.effective_rewritten (fuel : Nat) (loading : List Place) (path : String) :
    Succeeds (effective before fuel loading path) (effective after fuel loading path) := by
  induction fuel generalizing loading path with
  | zero => exact .refl _
  | succ fuel ih =>
    simp only [effective, h.locate]
    refine Succeeds.bind (.refl _) fun place => ?_
    split
    · intro _ hresult
      cases hresult
    · refine (readFile_rewritten hkeeps path).bind fun config => ?_
      refine (Succeeds.foldlM _ _ fun inherited base => ?_).bind fun _ => .refl _
      exact (ih (place :: loading) base).bind fun _ => .refl _

theorem Session.loadAliases_rewritten (options : Options) :
    Succeeds (loadAliases before options) (loadAliases after options) := by
  unfold loadAliases
  rw [h.contains]
  split
  · unfold TsConfig.load
    rw [h.size_entries]
    exact (TsConfig.effective_rewritten h hkeeps _ _ _).bind fun _ => .refl _
  · exact .refl _

end Settings

/-- What a file turns out to be after inlining. -/
inductive SourceFile.Inlined (values : Enum.Values) : SourceFile → SourceFile → Prop where
  | parsed {module after : SourceModule} (h : module.Inlined values after) :
      Inlined values (.parsed module) (.parsed after)
  | skipped (path : String) : Inlined values (.skipped path) (.skipped path)

theorem SourceModule.Inlined.refl (values : Enum.Values) (module : SourceModule) :
    module.Inlined values module :=
  ⟨rfl, rfl, rfl, rfl, List.forall₂_same.2 fun _ _ => .refl values _ _⟩

theorem SourceFile.Inlined.refl (values : Enum.Values) (file : SourceFile) :
    file.Inlined values file := by
  cases file with
  | parsed module => exact .parsed (.refl values module)
  | skipped path => exact .skipped path

namespace Session

/-- The paths of the files of a project. -/
def paths (session : Session) (tree : FileTree) : Except Failure (List String) :=
  Source.gather tree session.options.sourceDir session.options.filePattern
    session.options.excludeDirs

/-- Each source of the project that is changed can still be read, and reads as the
module it was, with some of its references inlined. -/
def KeepsSources (session : Session) (before after : FileTree) : Prop :=
  ∀ paths, session.paths before = .ok paths → ∀ path ∈ paths, ∀ text text' file,
    before.read path = .ok text → after.read path = .ok text' → text' ≠ text →
    SourceModule.read path text = .ok file →
    text'.utf8ByteSize ≤ maxFileSize ∧
      ∃ file', SourceModule.read path text' = .ok file' ∧
        SourceFile.Inlined session.analysis.values file file'

theorem readSource_ok_iff {tree : FileTree} {path : String} {file : SourceFile} :
    readSource tree path = .ok file ↔
      ∃ text, tree.read path = .ok text ∧ text.utf8ByteSize ≤ maxFileSize ∧
        SourceModule.read path text = .ok file := by
  unfold readSource
  cases hcontent : tree.content path with
  | error cause =>
    have hread : tree.read path = .error cause := by simp only [FileTree.read, hcontent]
    simp only [hread, reduceCtorEq, false_and, exists_false, iff_false]
    intro h
    cases h
  | ok content =>
    change (if maxFileSize < content.size then _ else _) = _ ↔ _
    cases content with
    | binary size =>
      have hread : tree.read path = .error .notText := by
        simp only [FileTree.read, hcontent]
      simp only [hread, reduceCtorEq, false_and, exists_false, iff_false]
      split <;> exact fun h => by cases h
    | text written =>
      have hread : tree.read path = .ok written := by simp only [FileTree.read, hcontent]
      simp only [hread, Except.ok.injEq, exists_eq_left', Content.size]
      split
      next hlarge =>
        constructor
        · intro h
          cases h
        · rintro ⟨hsmall, -⟩
          omega
      next hsmall => exact (and_iff_right (Nat.le_of_not_lt hsmall)).symm

theorem analyze_ok {tree : FileTree} {options : Options} {session : Session}
    (h : analyze tree options = .ok session) :
    ∃ aliases paths files analysis, loadAliases tree options = .ok aliases ∧
      Source.gather tree options.sourceDir options.filePattern options.excludeDirs =
        .ok paths ∧
      paths.mapM (readSource tree) = .ok files ∧
      Analysis.ofModules aliases options.inlineLocal (files.filterMap SourceFile.module?) =
        .ok analysis ∧
      session = ⟨options, paths.length, analysis⟩ := by
  unfold analyze at h
  obtain ⟨aliases, haliases, h⟩ := ok_of_bind h
  obtain ⟨paths, hpaths, h⟩ := ok_of_bind h
  obtain ⟨files, hfiles, h⟩ := ok_of_bind h
  obtain ⟨analysis, hanalysis, h⟩ := ok_of_bind h
  exact ⟨aliases, paths, files, analysis, haliases, hpaths, hfiles, ok_of_mapError hanalysis,
    (Except.ok.inj h).symm⟩

/-- Each file is read again. -/
theorem mapM_readSource {values : Enum.Values} {paths : List String} {files : List SourceFile}
    (hstep : ∀ path ∈ paths, ∀ file, readSource before path = .ok file →
      ∃ file', readSource after path = .ok file' ∧ SourceFile.Inlined values file file')
    (hfiles : paths.mapM (readSource before) = .ok files) :
    ∃ files', paths.mapM (readSource after) = .ok files' ∧
      List.Forall₂ (SourceFile.Inlined values) files files' := by
  induction paths generalizing files with
  | nil =>
    cases hfiles
    exact ⟨[], rfl, .nil⟩
  | cons path rest ih =>
    obtain ⟨file, others, hfile, hothers, rfl⟩ := mapM_cons_ok hfiles
    obtain ⟨file', hfile', hinlined⟩ := hstep path (by simp) file hfile
    obtain ⟨others', hothers', hrest⟩ :=
      ih (fun path hpath => hstep path (by simp [hpath])) hothers
    refine ⟨file' :: others', ?_, .cons hinlined hrest⟩
    rw [List.mapM_cons, hfile', hothers']
    rfl

/-- A rewritten project is analysed again. -/
theorem analyze_rewritten {options : Options} {session : Session}
    (halike : before.Alike after) (hsettings : KeepsSettings before after)
    (hsources : session.KeepsSources before after)
    (hdistinct : Enum.DistinctMembers session.analysis.project.index)
    (h : analyze before options = .ok session) :
    ∃ session', analyze after options = .ok session' ∧ session'.table = session.table ∧
      session'.options = session.options := by
  obtain ⟨aliases, paths, files, analysis, haliases, hpaths, hfiles, hanalysis, rfl⟩ :=
    analyze_ok h
  obtain ⟨files', hfiles', hinlined⟩ :
      ∃ files', paths.mapM (readSource after) = .ok files' ∧
        List.Forall₂ (SourceFile.Inlined analysis.values) files files' := by
    refine mapM_readSource (fun path hpath file hfile => ?_) hfiles
    obtain ⟨text, hread, hsize, hfile⟩ := readSource_ok_iff.1 hfile
    obtain ⟨text', hread'⟩ := halike.exists_read hread
    by_cases hsame : text' = text
    · subst hsame
      exact ⟨file, readSource_ok_iff.2 ⟨text', hread', hsize, hfile⟩, .refl _ file⟩
    · obtain ⟨hsize', file', hfile', hinlined⟩ :=
        hsources paths hpaths path hpath text text' file hread hread' hsame hfile
      exact ⟨file', readSource_ok_iff.2 ⟨text', hread', hsize', hfile'⟩, hinlined⟩
  have hmodules : List.Forall₂ (SourceModule.Inlined analysis.values)
      (files.filterMap SourceFile.module?) (files'.filterMap SourceFile.module?) := by
    refine List.rel_filterMap (fun file file' hfile => ?_) hinlined
    cases hfile with
    | parsed h => exact .some h
    | skipped path => exact .none
  have hindex : analysis.project.index =
      .ofModules (files.filterMap SourceFile.module?) := by
    obtain ⟨values, -, rfl⟩ := Analysis.ofModules_ok hanalysis
    rfl
  rw [hindex] at hdistinct
  obtain ⟨analysis', hanalysis', htable⟩ :=
    Analysis.ofModules_inlined hdistinct hanalysis hmodules
  refine ⟨⟨options, paths.length, analysis'⟩, ?_, htable, rfl⟩
  unfold analyze
  rw [loadAliases_rewritten halike hsettings options aliases haliases, halike.gather, hpaths]
  change (paths.mapM (readSource after) >>= _) = _
  rw [hfiles']
  change ((Analysis.ofModules aliases options.inlineLocal _).mapError _ >>= _) = _
  rw [hanalysis']
  rfl

end Session

end EnumInline
