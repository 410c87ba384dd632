import EnumInline.Proofs.CommandLine.WriteBack
import EnumInline.Proofs.Session.Rewriting
import EnumInline.Proofs.Text.Pieces

/-!
The files of a project, transformed by their paths. The table lists a file under its
path. The hook is given an identifier and takes for the path what stands before the
first question mark or number sign in it. A file may have either in its name; it is
then looked for under a path that is not its own.
-/

namespace EnumInline

open Text

namespace Hook

/-- Nothing in an identifier is taken for a query or a fragment. -/
def IsBare (id : String) : Prop := ∀ c ∈ id.toList, c ≠ '?' ∧ c ≠ '#'

/-- An identifier is a path with what is taken for a query or a fragment behind it. -/
structure Extends (id path : String) : Prop where
  bare : IsBare path
  behind : ∃ mark rest, id.toList = path.toList ++ mark :: rest ∧ (mark = '?' ∨ mark = '#')

variable {id path : String}

theorem cleanId_of_append {rest : List Char} (hpath : IsBare path)
    (hid : id.toList = path.toList ++ rest)
    (hmark : ∀ c, rest.head? = some c → c = '?' ∨ c = '#') : cleanId id = path := by
  have hrun : (path.toList ++ rest).takeWhile (fun c => c != '?' && c != '#') = path.toList := by
    apply takeWhile_append_of_stop
    · intro c hc
      simpa using hpath c hc
    · intro c hc
      rcases hmark c hc with rfl | rfl <;> rfl
  simp only [cleanId, onChars, hid, hrun, String.ofList_toList]

theorem cleanId_of_isBare (h : IsBare id) : cleanId id = id :=
  cleanId_of_append h (List.append_nil _).symm (by simp)

theorem cleanId_of_extends (h : Extends id path) : cleanId id = path := by
  obtain ⟨mark, rest, hid, hmark⟩ := h.behind
  apply cleanId_of_append h.bare hid
  simpa using hmark

/-- An identifier is a path, with or without something behind it. -/
theorem isBare_or_extends (id : String) : IsBare id ∨ ∃ path, Extends id path := by
  rcases forall_or_exists_stop (fun c => c != '?' && c != '#') id.toList with
    hbare | ⟨path, mark, rest, hid, hpath, hmark⟩
  · left
    intro c hc
    simpa using hbare c hc
  · right
    refine ⟨String.ofList path, ?_, mark, rest, ?_, ?_⟩
    · intro c hc
      rw [String.toList_ofList] at hc
      simpa using hpath c hc
    · rw [hid, String.toList_ofList]
    · by_cases h : mark = '?'
      · exact Or.inl h
      · exact Or.inr (by simpa [h] using hmark)

/-- A character that ends a step of a path, on one system or another. -/
def endsStep (c : Char) : Bool := c == '/' || c == '\\'

/-- No step of a path is called as a directory of a vendor. -/
def AvoidsVendors (vendorDirs : List String) (path : String) : Prop :=
  ∀ name ∈ vendorDirs, ¬ IsPiece endsStep path.toList name.toList

variable {vendorDirs : List String}

theorem isVendorPath_eq_false_iff :
    isVendorPath vendorDirs path = false ↔ AvoidsVendors vendorDirs path := by
  unfold isVendorPath AvoidsVendors
  rw [List.any_eq_false]
  constructor
  · intro h name hname hpiece
    refine h _ (mem_splitWhere.2 hpiece) ?_
    rw [String.ofList_toList]
    exact List.contains_iff_mem.2 hname
  · intro h segment hsegment hvendor
    refine h _ (List.contains_iff_mem.1 hvendor) ?_
    rw [String.toList_ofList]
    exact mem_splitWhere.1 hsegment

instance : Decidable (AvoidsVendors vendorDirs path) :=
  decidable_of_iff _ isVendorPath_eq_false_iff

variable {hook : Hook} {code : String}

/-- What the hook makes of a file, by the path in its identifier. -/
theorem transform_of_cleanId (h : cleanId id = path) :
    hook.transform id code =
      if AvoidsVendors hook.vendorDirs path then
        (hook.table.entriesForPath? path).map fun entries => Substitution.replace entries code
      else none := by
  simp only [transform, h, ← isVendorPath_eq_false_iff]
  cases isVendorPath hook.vendorDirs path <;> rfl

end Hook

namespace Session

variable {tree : FileTree} {options : Options} {session : Session}

theorem exists_read_of_mem_modules (hsession : analyze tree options = .ok session)
    {module : SourceModule} (hmodule : module ∈ session.analysis.project.modules) :
    ∃ content, tree.read module.path = .ok content := by
  obtain ⟨aliases, paths, files, analysis, -, -, hfiles, hanalysis, rfl⟩ := analyze_ok hsession
  obtain ⟨values, -, rfl⟩ := Analysis.ofModules_ok hanalysis
  obtain ⟨file, hfile, hparsed⟩ := List.mem_filterMap.1 hmodule
  obtain ⟨path, -, hsource⟩ := (mapM_ok hfiles).2 file hfile
  obtain ⟨content, hread, -, hcontent⟩ := readSource_ok_iff.1 hsource
  cases file with
  | skipped path => cases hparsed
  | parsed found =>
    obtain rfl := Option.some.inj hparsed
    obtain ⟨items, rfl⟩ := SourceModule.exists_items_of_read hcontent
    exact ⟨content, hread⟩

/-- A file that is read by its canonical path is transformed under the path that the hook
finds in it. -/
theorem transformFile_of_cleanId {now : FileTree} {path found content : String}
    (hread : now.read path = .ok content) (hcanonical : now.canonicalize path = .ok path)
    (hfound : Hook.cleanId path = found) :
    session.transformFile now path =
      .ok (if Hook.AvoidsVendors session.options.vendorDirs found then
        (session.table.entriesForPath? found).map fun entries =>
          Substitution.replace entries content
      else none) := by
  have htransform : session.transform path content = _ := Hook.transform_of_cleanId hfound
  have hfile : session.transformFile now path = .ok (session.transform path content) := by
    simp only [transformFile, hread, hcanonical]
    rfl
  rw [hfile, htransform]
  rfl

/-- Which files of the table are transformed by their paths. A file that was analysed,
that has entries and that is in no directory of a vendor can be read, and as long as
its path is canonical, what its path holds decides. Without a question mark and a
number sign in it, the text is that of the file with its entries replaced. With one,
the file is transformed as if it stood at the shorter path before the first of them:
with the entries of that path, if it has any and goes through no directory of a
vendor, and not at all otherwise. -/
theorem transformFile_listed (hsession : analyze tree options = .ok session)
    {module : SourceModule} (hmodule : module ∈ session.analysis.project.modules)
    {entries : Entries} (hentries : session.table.entriesForPath? module.path = some entries)
    (hvendors : Hook.AvoidsVendors session.options.vendorDirs module.path) :
    (∃ content, tree.read module.path = .ok content) ∧
      ∀ now content, now.read module.path = .ok content →
        now.canonicalize module.path = .ok module.path →
        (Hook.IsBare module.path →
          session.transformFile now module.path =
            .ok (some (Substitution.replace entries content))) ∧
        (¬ Hook.IsBare module.path →
          ∃ path, Hook.Extends module.path path ∧
            session.transformFile now module.path =
              .ok (if Hook.AvoidsVendors session.options.vendorDirs path then
                (session.table.entriesForPath? path).map fun others =>
                  Substitution.replace others content
              else none)) := by
  refine ⟨exists_read_of_mem_modules hsession hmodule, fun now content hread hcanonical => ?_⟩
  constructor
  · intro hbare
    rw [transformFile_of_cleanId hread hcanonical (Hook.cleanId_of_isBare hbare),
      if_pos hvendors, hentries, Option.map_some]
  · intro hmarked
    obtain ⟨path, hextends⟩ := (Hook.isBare_or_extends module.path).resolve_left hmarked
    exact ⟨path, hextends,
      transformFile_of_cleanId hread hcanonical (Hook.cleanId_of_extends hextends)⟩

/-- A source with an enum and what is written of its member. -/
def sizeSource (used : String) : String := "const enum Size \x7b S \x7d " ++ used

/-- A project of one source. -/
def lone (name : String) : FileTree :=
  ⟨.ofList [(["p"], Entry.directory),
    (["p", name], Entry.file (.text (sizeSource "Size.S")))], ["p"]⟩

def loneOptions : Options :=
  ⟨"/p", "/p", Source.defaultPattern, "/p/tsconfig.json", false, Source.defaultExcludes,
    Setup.defaultVendorDirs, true⟩

/-- The source at a path was analysed, goes through no directory of a vendor, and its
entries replace the member. -/
def Lists (session : Session) (path : String) : Prop :=
  ∃ module entries, module ∈ session.analysis.project.modules ∧ module.path = path ∧
    session.table.entriesForPath? module.path = some entries ∧
    Substitution.replace entries (sizeSource "Size.S") = sizeSource "0" ∧
    Hook.AvoidsVendors session.options.vendorDirs module.path

/-- The session of a project of one source, evaluated. -/
def evaluates (name path : String) (result : Option String) : Bool :=
  decide (((lone name).read path).toOption = some (sizeSource "Size.S")) &&
  decide (((lone name).canonicalize path).toOption = some path) &&
  (analyze (lone name) loneOptions).toOption.any fun session =>
    decide (session.analysis.project.modules.map SourceModule.path = [path]) &&
    (session.table.entriesForPath? path).any (fun entries =>
      Substitution.replace entries (sizeSource "Size.S") == sizeSource "0") &&
    decide (Hook.AvoidsVendors session.options.vendorDirs path) &&
    decide ((session.transformFile (lone name) path).toOption = some result)

theorem exists_lists_of_evaluates {name path : String} {result : Option String}
    (h : evaluates name path result = true) :
    ∃ session, analyze (lone name) loneOptions = .ok session ∧ session.Lists path ∧
      (lone name).read path = .ok (sizeSource "Size.S") ∧
      (lone name).canonicalize path = .ok path ∧
      session.transformFile (lone name) path = .ok result := by
  obtain ⟨htree, hanalysis⟩ := Bool.and_eq_true_iff.1 h
  obtain ⟨session, hsession, hfacts⟩ := exists_ok_of_any hanalysis
  simp only [Bool.and_eq_true, decide_eq_true_eq] at htree hfacts
  obtain ⟨⟨⟨hpaths, hentries⟩, hvendors⟩, hresult⟩ := hfacts
  have hmem : path ∈ session.analysis.project.modules.map SourceModule.path := by
    rw [hpaths]
    exact List.mem_cons_self
  obtain ⟨module, hmodule, rfl⟩ := List.mem_map.1 hmem
  obtain ⟨entries, hfound, hreplace⟩ := (Option.any_eq_true _ _).1 hentries
  exact ⟨session, hsession,
    ⟨module, entries, hmodule, rfl, hfound, beq_iff_eq.1 hreplace, hvendors⟩,
    ok_of_toOption htree.1, ok_of_toOption htree.2, ok_of_toOption hresult⟩

theorem evaluates_lone :
    evaluates "wide\\size.ts" "/p/wide\\size.ts" (some (sizeSource "0")) = true ∧
      evaluates "size#2.ts" "/p/size#2.ts" none = true := by
  decide +kernel

/-- A backslash in the name of a file does no harm. -/
theorem transformFile_listed_backslash :
    let tree := lone "wide\\size.ts"
    ∃ session, analyze tree loneOptions = .ok session ∧
      session.transformFile tree "/p/wide\\size.ts" = .ok (some (sizeSource "0")) := by
  intro tree
  obtain ⟨session, hsession, hlists, hread, hcanonical, -⟩ :=
    exists_lists_of_evaluates evaluates_lone.1
  obtain ⟨module, entries, hmodule, hpath, hentries, hreplace, hvendors⟩ := hlists
  obtain ⟨-, hnow⟩ := transformFile_listed hsession hmodule hentries hvendors
  rw [hpath] at hnow
  have hbare : Hook.IsBare "/p/wide\\size.ts" := by
    simp [Hook.IsBare]
  refine ⟨session, hsession, ?_⟩
  rw [(hnow tree _ hread hcanonical).1 hbare, hreplace]

/-- A number sign in the name of a file keeps the file from being transformed, whatever
entries it has. -/
theorem transformFile_number_sign :
    let tree := lone "size#2.ts"
    ∃ session, analyze tree loneOptions = .ok session ∧ session.Lists "/p/size#2.ts" ∧
      tree.read "/p/size#2.ts" = .ok (sizeSource "Size.S") ∧
      tree.canonicalize "/p/size#2.ts" = .ok "/p/size#2.ts" ∧
      session.transformFile tree "/p/size#2.ts" = .ok none := by
  intro tree
  exact exists_lists_of_evaluates evaluates_lone.2

end Session

end EnumInline
