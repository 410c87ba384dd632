import EnumInline.Proofs.CommandLine.WriteBack
import EnumInline.Proofs.Session.Rewriting
import EnumInline.Proofs.Substitution.Literals
import EnumInline.Proofs.Table.Entries

/-!
Rewriting files in place, and once more. The tree that the first run leaves behind has
the files that the first tree had. What the first run wrote has nothing in it that the
second would replace, as long as no literal has; but it need not be a source any more.
Where it is, the second run analyses the same project, some of whose references are
literals by now, and finds the table that it had.
-/

namespace EnumInline

variable {before after tree : FileTree}

/-- What is asked for does not depend on the texts of files. -/
theorem Setup.options_alike (h : before.Alike after) (setup : Setup) :
    setup.options after = setup.options before := by
  simp only [options, canonical, h.canonicalize]

theorem Setup.load_rewritten (h : before.Alike after) (hkeeps : KeepsSettings before after)
    (root : String) : Succeeds (load before root) (load after root) :=
  (Settings.load_rewritten h hkeeps root).bind fun _ => .refl _

namespace CommandLine

theorem analyze_rewritten {root : String} {overrides : Overrides} {session : Session}
    (halike : before.Alike after) (hsettings : KeepsSettings before after)
    (hsources : session.KeepsSources before after)
    (hdistinct : Enum.DistinctMembers session.analysis.project.index)
    (h : analyze before root overrides = .ok session) :
    ∃ session', analyze after root overrides = .ok session' ∧ session'.hook = session.hook := by
  unfold analyze at h ⊢
  obtain ⟨setup, hsetup, h⟩ := ok_of_bind h
  obtain ⟨options, hoptions, hsession⟩ := ok_of_bind (ok_of_mapError h)
  obtain ⟨session', hsession', htable, hsame⟩ :=
    Session.analyze_rewritten halike hsettings hsources hdistinct hsession
  refine ⟨session', ?_, ?_⟩
  · rw [Setup.load_rewritten halike hsettings root setup (ok_of_mapError hsetup)]
    simp only [Except.mapError, bind, Except.bind, Session.start, Setup.options_alike halike,
      hoptions, hsession']
  · simp only [Session.hook, htable, hsame]

end CommandLine

/-- Entries whose literals hold no access that has an entry, even if a number among
them is written as a name. -/
structure Substitution.IsSettled (entries : Entries) : Prop where
  names : SparesNumbers entries
  texts (access text : String) : entries[access]? = some text → replace entries text = text

theorem Substitution.isSettled_iff {entries : Entries} :
    IsSettled entries ↔ SparesNumbers entries ∧
      ∀ entry ∈ entries.toList, replace entries entry.2 = entry.2 := by
  simp only [Prod.forall, Std.ExtTreeMap.mem_toList_iff_getElem?_eq_some]
  exact ⟨fun h => ⟨h.names, h.texts⟩, fun h => ⟨h.1, h.2⟩⟩

instance {entries : Entries} : Decidable (Substitution.IsSettled entries) :=
  decidable_of_iff _ Substitution.isSettled_iff.symm

namespace Session

/-- The entries of the file at a path, if it is one to be rewritten. -/
def entriesFor? (session : Session) (place : Place) : Option Entries :=
  if Hook.isVendorPath session.options.vendorDirs (Hook.cleanId place.path) then none
  else session.table.entriesForPath? (Hook.cleanId place.path)

theorem transform_eq (session : Session) (place : Place) (code : String) :
    session.transform place.path code =
      (session.entriesFor? place).map fun entries => Substitution.replace entries code := by
  unfold transform Hook.transform entriesFor?
  by_cases hvendor : Hook.isVendorPath session.options.vendorDirs (Hook.cleanId place.path) = true
  · rw [if_pos hvendor]
    exact if_pos hvendor
  · rw [if_neg hvendor]
    exact if_neg hvendor

/-- A file is settled if the entries that are put into it are. -/
def IsSettled (session : Session) (place : Place) : Prop :=
  ∀ entries ∈ session.entriesFor? place, Substitution.IsSettled entries

instance {session : Session} {place : Place} : Decidable (session.IsSettled place) :=
  inferInstanceAs (Decidable (∀ entries ∈ session.entriesFor? place, _))

/-- The literals of a project are the texts of values. -/
theorem exists_value_of_entry {options : Options} {session : Session}
    (h : analyze tree options = .ok session) {place : Place} {entries : Entries}
    (hentries : session.entriesFor? place = some entries) {access text : String}
    (hentry : entries[access]? = some text) : ∃ value : MemberValue, text = value.text := by
  obtain ⟨aliases, paths, files, analysis, -, -, -, hanalysis, rfl⟩ := analyze_ok h
  obtain ⟨values, -, rfl⟩ := Analysis.ofModules_ok hanalysis
  unfold entriesFor? at hentries
  split at hentries
  · cases hentries
  · exact ReplacementTable.exists_value_of_entry hentries hentry

/-- All that is replaced in a file by `session` was replaced in it by `earlier` too. -/
def ReplacesNoMore (session earlier : Session) (place : Place) : Prop :=
  ∀ entries ∈ session.entriesFor? place, ∃ entries' ∈ earlier.entriesFor? place,
    ∀ access ∈ entries, access ∈ entries'

theorem ReplacesNoMore.of_hook {session earlier : Session} (h : session.hook = earlier.hook)
    (place : Place) : session.ReplacesNoMore earlier place := by
  intro entries hentries
  refine ⟨entries, ?_, fun _ haccess => haccess⟩
  have htable : session.table = earlier.table := congrArg Hook.table h
  have hvendors : session.options.vendorDirs = earlier.options.vendorDirs :=
    congrArg Hook.vendorDirs h
  unfold entriesFor? at hentries ⊢
  rw [← htable, ← hvendors]
  exact hentries

/-- In a settled file, nothing is left to be replaced. -/
theorem transform_again {options : Options} {session session' : Session}
    (h : analyze tree options = .ok session) {place : Place} (hsettled : session.IsSettled place)
    (hfewer : session'.ReplacesNoMore session place) {current again : String}
    (hagain : session'.transform place.path current = some again) (code : String) :
    ∃ text, session.transform place.path code = some text ∧
      session'.transform place.path text = some text := by
  rw [transform_eq, Option.map_eq_some_iff] at hagain
  obtain ⟨entries', hentries', -⟩ := hagain
  obtain ⟨entries, hentries, hsubset⟩ := hfewer entries' hentries'
  obtain ⟨hnames, htexts⟩ := hsettled entries hentries
  refine ⟨Substitution.replace entries code, by rw [transform_eq, hentries]; rfl, ?_⟩
  have hsealed (access literal : String) (hentry : entries[access]? = some literal) :
      Substitution.IsSealed entries literal.toList := by
    obtain ⟨value, rfl⟩ := exists_value_of_entry h hentries hentry
    rw [MemberValue.text, String.toList_ofList]
    exact value.isSealed_chars hnames
  rw [transform_eq, hentries', Option.map_some,
    Substitution.replace_replace_of_fewer hsealed htexts hsubset]

end Session

namespace CommandLine

open Session (transformFile_of_read)

/-- Texts that the files hold already are not written. -/
theorem writeBacks_same (world : World) {texts : List (String × Option String)} {count : Nat}
    (h : ∀ path text, (path, some text) ∈ texts → world.tree.read path = .ok text) :
    texts.foldlM writeBack count world = .ok count world := by
  induction texts with
  | nil => rfl
  | cons file texts ih =>
    obtain ⟨path, result⟩ := file
    have hstep : writeBack count (path, result) world = .ok count world := by
      cases result with
      | none => rfl
      | some text =>
        have hread : readFile path world = .ok text world :=
          ask_of_ok (by rw [h path text (by simp)]; rfl)
        rw [writeBack, bind_of_ok hread]
        simp [pure, EStateM.pure]
    rw [List.foldlM_cons, bind_of_ok hstep]
    exact ih fun path text hmem => h path text (by simp [hmem])

/-- A listed file holds the text that was found for it. -/
theorem Rewritten.read_some {session : Session} {files : List String}
    {texts : List (String × Option String)} (h : Rewritten tree texts after)
    (htexts : transformFiles tree session files = .ok texts) {path text : String}
    (hpath : path ∈ files) (hsome : session.transformFile tree path = .ok (some text)) :
    after.read path = .ok text := by
  obtain ⟨result, hresult⟩ := (mem_transformFiles htexts).1 path hpath
  have hfound := ((mem_transformFiles htexts).2 path result hresult).2
  rw [hsome] at hfound
  obtain rfl := Except.ok.inj hfound
  exact h.written path text hresult

/-- A second run finds the texts that the first run has written. -/
theorem runTransform_again {options : Options} {session session' : Session}
    (h : Session.analyze tree options = .ok session) {files : List String}
    {texts : List (String × Option String)}
    (hread : ∀ path ∈ files, ∃ text, tree.read path = .ok text)
    (htexts : transformFiles tree session files = .ok texts)
    (hrewritten : Rewritten tree texts after)
    (hsettled : ∀ path ∈ files, ∀ place, tree.locate false path = .ok place →
      session.IsSettled place ∧ session'.ReplacesNoMore session place) :
    ∃ messages, runTransform session' files true ⟨after, "", ""⟩ =
      .ok () ⟨after, "", messages⟩ := by
  have hread' (path : String) (hpath : path ∈ files) : ∃ text, after.read path = .ok text := by
    obtain ⟨text, htext⟩ := hread path hpath
    exact hrewritten.alike.exists_read htext
  obtain ⟨texts', htexts'⟩ := transformFiles_ok session' hread'
  have hsame (path text : String) (hmem : (path, some text) ∈ texts') :
      after.read path = .ok text := by
    obtain ⟨hpath, hagain⟩ := (mem_transformFiles htexts').2 path (some text) hmem
    obtain ⟨code, hcode⟩ := hread path hpath
    obtain ⟨place, hplace, hfirst⟩ := transformFile_of_read session hcode
    obtain ⟨current, hcurrent⟩ := hread' path hpath
    obtain ⟨place', hplace', hsecond⟩ := transformFile_of_read session' hcurrent
    obtain rfl : place' = place :=
      Except.ok.inj (hplace'.symm.trans ((hrewritten.alike.locate _ _).trans hplace))
    have hagain : session'.transform place'.path current = some text :=
      Except.ok.inj (hsecond.symm.trans hagain)
    obtain ⟨hsettled, hfewer⟩ := hsettled path hpath place' hplace
    -- The file had entries before, so that the first run has written it.
    obtain ⟨written, hwritten, hkept⟩ := Session.transform_again h hsettled hfewer hagain code
    rw [hwritten] at hfirst
    have hholds := hrewritten.read_some htexts hpath hfirst
    obtain rfl : current = written := Except.ok.inj (hcurrent.symm.trans hholds)
    rw [Option.some.inj (hagain.symm.trans hkept)]
    exact hholds
  refine ⟨"" ++ ("Rewrote " ++ toString 0 ++ " of " ++ toString texts'.length ++ " files\n"), ?_⟩
  have hlook : ask (fun tree => transformFiles tree session' files) ⟨after, "", ""⟩ =
      .ok texts' ⟨after, "", ""⟩ := ask_of_ok htexts'
  rw [runTransform, bind_of_ok hlook, if_pos rfl,
    bind_of_ok (writeBacks_same ⟨after, "", ""⟩ hsame)]
  rfl

/-- The tree after files have been rewritten in place. -/
def rewrite (tree : FileTree) (files : List String) (root : String) (overrides : Overrides) :
    FileTree :=
  (answer tree (.run (.transform files root overrides true))).tree

theorem analyze_ok {root : String} {overrides : Overrides} {session : Session}
    (h : analyze tree root overrides = .ok session) :
    ∃ options, Session.analyze tree options = .ok session := by
  unfold analyze at h
  obtain ⟨setup, -, h⟩ := ok_of_bind h
  obtain ⟨options, -, hsession⟩ := ok_of_bind (ok_of_mapError h)
  exact ⟨options, hsession⟩

theorem rewrite_eq {root : String} {overrides : Overrides} {session : Session}
    (h : analyze tree root overrides = .ok session) (files : List String) :
    rewrite tree files root overrides =
      (Outcome.ofResult (runTransform session files true ⟨tree, "", ""⟩)).tree := by
  rw [rewrite, answer_transform h]

theorem rewrite_of_error {root : String} {overrides : Overrides} {report : Report}
    (h : analyze tree root overrides = .error report) (files : List String) :
    rewrite tree files root overrides = tree := by
  rw [rewrite, answer_transform_of_error h]
  rfl

/-- Either some file cannot be read and nothing is rewritten, or all of them are. -/
theorem rewrite_cases {root : String} {overrides : Overrides} {session : Session}
    (h : analyze tree root overrides = .ok session) (files : List String) :
    rewrite tree files root overrides = tree ∨
      (∀ path ∈ files, ∃ text, tree.read path = .ok text) ∧
        ∃ texts, transformFiles tree session files = .ok texts ∧
          Rewritten tree texts (rewrite tree files root overrides) := by
  rw [rewrite_eq h]
  by_cases hread : ∀ path ∈ files, ∃ text, tree.read path = .ok text
  · obtain ⟨texts, count, after, htexts, hrun, hrewritten⟩ :=
      runTransform_ok session ⟨tree, "", ""⟩ hread
    rw [hrun]
    exact Or.inr ⟨hread, texts, htexts, hrewritten⟩
  · refine Or.inl ?_
    simp only [not_forall, not_exists] at hread
    obtain ⟨path, hpath, hnone⟩ := hread
    cases hcause : tree.read path with
    | ok text => exact absurd hcause (hnone text)
    | error cause =>
      obtain ⟨report, hreport⟩ := transformFiles_error session hpath hcause
      rw [runTransform_error ⟨tree, "", ""⟩ hreport]
      rfl

def shopSource (initializer argument : String) : String :=
  "import \x7b Size \x7d from \"./size\";\nconst enum Fit \x7b Least = " ++ initializer ++
    " \x7d\nsell(" ++ argument ++ ");\n"

def sizeSource : String := "export const enum Size \x7b Small = \"s\" \x7d\n"

/-- A project in which an enum takes a member over from another one. -/
def shop : FileTree :=
  ⟨.ofList [(["p"], Entry.directory), (["p", "size.ts"], Entry.file (.text sizeSource)),
    (["p", "shop.ts"], Entry.file (.text (shopSource "Size.Small" "Fit.Least")))],
    ["p"]⟩

/-- The module that the file with this source is. -/
def shopModule (initializer : Initializer) : SourceModule :=
  ⟨"/p/shop.ts", "/p/shop", [⟨"Fit", false, [⟨"Least", initializer⟩]⟩],
    [⟨"./size", [⟨"Size", "Size"⟩]⟩], []⟩

/-- What the analysis and the rewriting of the project come to. -/
theorem shop_evaluated :
    (analyze shop "." noOverrides).toOption.any (fun session =>
      decide (Enum.DistinctMembers session.analysis.project.index) &&
      (decide ((session.paths shop).toOption = some ["/p/shop.ts", "/p/size.ts"]) &&
      (decide (session.analysis.values[(⟨⟨"/p/shop", "Fit"⟩, "Least"⟩ : MemberKey)]? =
        some (.ofLiteral (.string "s"))) &&
      decide (session.IsSettled ["p", "shop.ts"])))) = true ∧
    ["/p/shop.ts", "/p/size.ts"].map (fun path =>
      ((rewrite shop ["shop.ts"] "." noOverrides).read path).toOption) =
      [some (shopSource "\"s\"" "\"s\""), some sizeSource] := by
  decide +kernel

/-- What is in the files of the project, and what they are read as. -/
theorem shop_contents :
    shop.entries.toList = [(["p"], .directory),
      (["p", "shop.ts"], .file (.text (shopSource "Size.Small" "Fit.Least"))),
      (["p", "size.ts"], .file (.text sizeSource))] ∧
    ["/p/shop.ts", "/p/size.ts"].map (fun path => (shop.read path).toOption) =
      [some (shopSource "Size.Small" "Fit.Least"), some sizeSource] ∧
    (shop.locate false "shop.ts").toOption = some ["p", "shop.ts"] ∧
    (∀ text ∈ [shopSource "Size.Small" "Fit.Least", sizeSource],
      Settings.read? text = none ∧ TsConfig.read? text = none) ∧
    (SourceModule.read "/p/shop.ts" (shopSource "Size.Small" "Fit.Least")).toOption =
      some (.parsed (shopModule (.reference (some "Size") "Small"))) ∧
    (SourceModule.read "/p/shop.ts" (shopSource "\"s\"" "\"s\"")).toOption =
      some (.parsed (shopModule (.literal none (.string "s")))) ∧
    (shopSource "\"s\"" "\"s\"").utf8ByteSize ≤ Session.maxFileSize := by
  decide +kernel

theorem shop_session : ∃ session, analyze shop "." noOverrides = .ok session ∧
    Enum.DistinctMembers session.analysis.project.index ∧
    (session.paths shop).toOption = some ["/p/shop.ts", "/p/size.ts"] ∧
    session.analysis.values[(⟨⟨"/p/shop", "Fit"⟩, "Least"⟩ : MemberKey)]? =
      some (.ofLiteral (.string "s")) ∧
    session.IsSettled ["p", "shop.ts"] := by
  simpa using exists_ok_of_any shop_evaluated.1

theorem shop_keepsSettings (after : FileTree) : KeepsSettings shop after := by
  obtain ⟨hlist, -, -, hsettings, -⟩ := shop_contents
  intro path text hread _
  obtain ⟨place, -, hget⟩ := FileTree.read_ok_iff.1 hread
  have hmem : (place, Entry.file (.text text)) ∈ shop.entries.toList := by
    rw [Std.ExtTreeMap.mem_toList_iff_getElem?_eq_some]
    unfold FileTree.get? at hget
    split at hget
    · cases hget
    · exact hget
  rw [hlist] at hmem
  simp only [List.mem_cons, Prod.mk.injEq, Entry.file.injEq, Content.text.injEq, reduceCtorEq,
    and_false, false_or, List.not_mem_nil, or_false] at hmem
  rcases hmem with ⟨-, rfl⟩ | ⟨-, rfl⟩
  · exact hsettings _ List.mem_cons_self
  · exact hsettings _ (List.mem_cons_of_mem _ List.mem_cons_self)

theorem shop_rewritten :
    (rewrite shop ["shop.ts"] "." noOverrides).read "/p/shop.ts" =
      .ok (shopSource "\"s\"" "\"s\"") ∧
    (rewrite shop ["shop.ts"] "." noOverrides).read "/p/size.ts" = .ok sizeSource := by
  have hfacts := shop_evaluated.2
  simp only [List.map_cons, List.map_nil, List.cons.injEq, and_true] at hfacts
  exact ⟨ok_of_toOption hfacts.1, ok_of_toOption hfacts.2⟩

theorem shop_keepsSources {session : Session}
    (hpaths : (session.paths shop).toOption = some ["/p/shop.ts", "/p/size.ts"])
    (hvalue : session.analysis.values[(⟨⟨"/p/shop", "Fit"⟩, "Least"⟩ : MemberKey)]? =
      some (.ofLiteral (.string "s"))) :
    session.KeepsSources shop (rewrite shop ["shop.ts"] "." noOverrides) := by
  obtain ⟨hshop, hsize⟩ := shop_rewritten
  obtain ⟨-, htexts, -, -, hmodule, hmodule', hsmall⟩ := shop_contents
  simp only [List.map_cons, List.map_nil, List.cons.injEq, and_true] at htexts
  intro paths hpaths' path hpath text text' file hread hread' hne hfile
  rw [hpaths'] at hpaths
  obtain rfl := Option.some.inj hpaths
  simp only [List.mem_cons, List.not_mem_nil, or_false] at hpath
  rcases hpath with rfl | rfl
  · rw [hshop] at hread'
    obtain rfl := Except.ok.inj hread'
    obtain rfl := Except.ok.inj (hread.symm.trans (ok_of_toOption htexts.1))
    obtain rfl := Except.ok.inj (hfile.symm.trans (ok_of_toOption hmodule))
    have hliteral : (MemberValue.ofLiteral (.string "s")).IsReadFrom
        (MemberValue.ofLiteral (.string "s")).chars :=
      ⟨_, rfl, _, TypeScript.Token.readHere_quote _ _⟩
    have hmember : Enum.Member.Inlined session.analysis.values ⟨"/p/shop", "Fit"⟩
        ⟨"Least", .reference (some "Size") "Small"⟩ ⟨"Least", .literal none (.string "s")⟩ :=
      ⟨rfl, .literal hvalue hliteral⟩
    exact ⟨hsmall, _, ok_of_toOption hmodule',
      .parsed ⟨rfl, rfl, rfl, rfl, .cons ⟨rfl, rfl, .cons hmember .nil⟩ .nil⟩⟩
  · rw [hsize] at hread'
    have htext : shop.read "/p/size.ts" = .ok sizeSource := ok_of_toOption htexts.2
    exact absurd (Except.ok.inj (hread'.symm.trans (htext.symm.trans hread))) hne

def maskSource (argument : String) : String :=
  "const enum Mask \x7b All = ~0 \x7d\nuse(" ++ argument ++ ");\n"

/-- A file with a member of a number that is written with an operator. -/
def masks : FileTree :=
  ⟨.ofList [(["p"], Entry.directory),
    (["p", "mask.ts"], Entry.file (.text (maskSource "Mask.All.toString()")))], ["p"]⟩

def echoSource (initializer argument : String) : String :=
  "const enum Echo \x7b First = 1, Second = " ++ initializer ++ " \x7d\nuse(" ++ argument ++ ");\n"

/-- A file with an enum one of whose literals holds an access to another. -/
def echoes : FileTree :=
  ⟨.ofList [(["p"], Entry.directory),
    (["p", "echo.ts"], Entry.file (.text (echoSource "\"Echo.First\"" "Echo.Second")))],
    ["p"]⟩

/-- Literals are searched for accesses as the rest of a text is. The second member gets another
value by the first run, and what is put in for it would be replaced by a second one. -/
theorem rewrite_rewrite_echoes :
    (rewrite echoes ["echo.ts"] "." noOverrides).read "echo.ts" =
      .ok (echoSource "\"1\"" "\"Echo.First\"") := by
  have htext : ((rewrite echoes ["echo.ts"] "." noOverrides).read "echo.ts").toOption =
      some (echoSource "\"1\"" "\"Echo.First\"") := by
    decide +kernel
  exact ok_of_toOption htext

end CommandLine

end EnumInline
