import EnumInline.CommandLine.Run
import EnumInline.Proofs.FileTree.Writing
import EnumInline.Proofs.Outcome
import Mathlib.Data.List.Induction

/-!
Writing files back. A run keeps what it has written also where it fails. But the texts of
all files are found before anything is written, so that nothing is written at all if one of
them is missing. The loop that writes them reads each file once more; it meets the texts
that it has written itself where several paths lead to one file.
-/

namespace EnumInline

variable {session : Session} {tree : FileTree}

namespace Session

theorem transformFile_of_read (session : Session) {path text : String}
    (hread : tree.read path = .ok text) :
    ∃ place, tree.locate false path = .ok place ∧
      session.transformFile tree path = .ok (session.transform place.path text) := by
  obtain ⟨place, hlocate, hid⟩ := FileTree.canonicalize_of_read hread
  refine ⟨place, hlocate, ?_⟩
  simp only [transformFile, hread, hid]
  rfl

theorem transformFile_of_error {path : String} {cause : IoCause}
    (hread : tree.read path = .error cause) :
    session.transformFile tree path = .error (.io path cause) := by
  simp only [transformFile, hread]
  rfl

theorem transformFile_congr {path other text : String} {result result' : Option String}
    (hlocate : tree.locate false path = tree.locate false other)
    (hread : tree.read path = .ok text)
    (h : session.transformFile tree path = .ok result)
    (h' : session.transformFile tree other = .ok result') : result = result' := by
  obtain ⟨place, hplace, hresult⟩ := transformFile_of_read session hread
  obtain ⟨place', hplace', hresult'⟩ :=
    transformFile_of_read session
      ((FileTree.read_congr hlocate).symm.trans hread)
  cases hplace.symm.trans (hlocate.trans hplace')
  rw [hresult] at h
  rw [hresult'] at h'
  exact Except.ok.inj (h.symm.trans h')

end Session

namespace CommandLine

section Steps

variable {α β : Type} {step : Run α} {next : α → Run β} {world world' : World}

theorem bind_of_ok {found : α} (h : step world = .ok found world') :
    (step >>= next) world = next found world' := by
  simp only [bind, EStateM.bind, h]

/-- What a step has done before it fails stays, and no other step follows it. -/
theorem bind_of_error {report : Report} (h : step world = .error report world') :
    (step >>= next) world = .error report world' := by
  simp only [bind, EStateM.bind, h]

theorem ask_of_ok {look : FileTree → Except Report α} {found : α}
    (h : look world.tree = .ok found) : ask look world = .ok found world := by
  simp only [ask, h]

theorem ask_of_error {look : FileTree → Except Report α} {report : Report}
    (h : look world.tree = .error report) : ask look world = .error report world := by
  simp only [ask, h]

end Steps

/-- The texts are found if every file can be read. -/
theorem transformFiles_ok (session : Session) {files : List String}
    (hread : ∀ path ∈ files, ∃ text, tree.read path = .ok text) :
    ∃ texts, transformFiles tree session files = .ok texts := by
  cases htexts : transformFiles tree session files with
  | ok texts => exact ⟨texts, rfl⟩
  | error report =>
    obtain ⟨earlier, path, later, rfl, hpath, -⟩ := mapM_error htexts
    obtain ⟨text, htext⟩ := hread path (by simp)
    obtain ⟨place, -, hresult⟩ := Session.transformFile_of_read session htext
    rw [hresult] at hpath
    cases hpath

/-- No text is found if a file cannot be read. -/
theorem transformFiles_error (session : Session) {files : List String} {path : String}
    {cause : IoCause} (hpath : path ∈ files) (hread : tree.read path = .error cause) :
    ∃ report, transformFiles tree session files = .error report := by
  cases htexts : transformFiles tree session files with
  | error report => exact ⟨report, rfl⟩
  | ok texts =>
    obtain ⟨result, -, hresult⟩ := (mapM_ok htexts).1 path hpath
    rw [Session.transformFile_of_error hread] at hresult
    cases hresult

/-- Each text that is found is that of the file with its path. -/
theorem mem_transformFiles {files : List String} {texts : List (String × Option String)}
    (htexts : transformFiles tree session files = .ok texts) :
    (∀ path ∈ files, ∃ result, (path, result) ∈ texts) ∧
      ∀ path result, (path, result) ∈ texts →
        path ∈ files ∧ session.transformFile tree path = .ok result := by
  have hstep : ∀ path found,
      (do
        let text ← (session.transformFile tree path).mapError
          (Report.ofFailure ("Failed to transform: " ++ path))
        .ok (path, text) : Except Report (String × Option String)) = .ok found →
      found.1 = path ∧ session.transformFile tree path = .ok found.2 := by
    intro path found hfound
    cases hresult : session.transformFile tree path with
    | error failure =>
      rw [hresult] at hfound
      cases hfound
    | ok result =>
      rw [hresult] at hfound
      cases hfound
      exact ⟨rfl, rfl⟩
  obtain ⟨hall, hback⟩ := mapM_ok htexts
  constructor
  · intro path hpath
    obtain ⟨⟨_, result⟩, hmem, hfound⟩ := hall path hpath
    obtain ⟨rfl, -⟩ := hstep _ _ hfound
    exact ⟨result, hmem⟩
  · intro path result hmem
    obtain ⟨_, hpath, hfound⟩ := hback _ hmem
    obtain ⟨rfl, hresult⟩ := hstep _ _ hfound
    exact ⟨hpath, hresult⟩

/-- A tree after some texts have been written to it: paths lead where they led, the
files that have a text hold it, and nothing else is changed. -/
structure Rewritten (before : FileTree) (texts : List (String × Option String))
    (after : FileTree) : Prop where
  alike : before.Alike after
  written (path text : String) : (path, some text) ∈ texts → after.read path = .ok text
  kept (place : Place) :
    (∀ path text, (path, some text) ∈ texts → before.locate false path ≠ .ok place) →
      after.get? place = before.get? place

theorem Rewritten.nil (before : FileTree) : Rewritten before [] before where
  alike := .refl before
  written _ _ h := by cases h
  kept _ _ := rfl

/-- A file that stays as it is. -/
theorem Rewritten.skip {before after : FileTree} {texts : List (String × Option String)}
    (h : Rewritten before texts after) (path : String) :
    Rewritten before (texts ++ [(path, none)]) after where
  alike := h.alike
  written other text hmem := h.written other text (by simpa using hmem)
  kept place hplace := h.kept place fun other text hmem => hplace other text (by simp [hmem])

/-- A file that holds the text already. -/
theorem Rewritten.same {before after : FileTree} {texts : List (String × Option String)}
    (h : Rewritten before texts after) {path text : String}
    (hread : after.read path = .ok text) :
    Rewritten before (texts ++ [(path, some text)]) after where
  alike := h.alike
  written other text' hmem := by
    rcases List.mem_append.1 hmem with hmem | hmem
    · exact h.written other text' hmem
    · cases List.mem_singleton.1 hmem
      exact hread
  kept place hplace := h.kept place fun other text hmem => hplace other text (by simp [hmem])

/-- A file that is written. Paths that lead to it too have the same text. -/
theorem Rewritten.write {before after : FileTree} {texts : List (String × Option String)}
    (h : Rewritten before texts after) {path text current : String} {place : Place}
    (hlocate : before.locate false path = .ok place)
    (hread : after.read path = .ok current)
    (hsame : ∀ other text', (other, some text') ∈ texts →
      before.locate false other = .ok place → text' = text) :
    Rewritten before (texts ++ [(path, some text)])
      (after.insert place (.file (.text text))) := by
  have hlocate' : after.locate false path = .ok place := (h.alike.locate _ _).trans hlocate
  have hplace := FileTree.get?_of_read hlocate' hread
  have halike : after.Alike (after.insert place (.file (.text text))) := .insert hplace text
  have hroot : place ≠ [] := by
    rintro rfl
    cases hplace
  refine ⟨h.alike.trans halike, fun other text' hmem => ?_, fun there hthere => ?_⟩
  · rw [FileTree.read_ok_iff]
    rcases List.mem_append.1 hmem with hmem | hmem
    · obtain ⟨there, hlocated, hget⟩ := FileTree.read_ok_iff.1 (h.written other text' hmem)
      refine ⟨there, (halike.locate _ _).trans hlocated, ?_⟩
      rw [FileTree.get?_insert hroot]
      by_cases hthere : there = place
      · subst hthere
        rw [if_pos rfl, hsame other text' hmem ((h.alike.locate _ _).symm.trans hlocated)]
      · rw [if_neg hthere, hget]
    · cases List.mem_singleton.1 hmem
      refine ⟨place, (halike.locate _ _).trans hlocate', ?_⟩
      rw [FileTree.get?_insert hroot, if_pos rfl]
  · have hne : there ≠ place := by
      rintro rfl
      exact hthere path text (by simp) hlocate
    rw [FileTree.get?_insert hroot, if_neg hne]
    exact h.kept there fun other text' hmem => hthere other text' (by simp [hmem])

theorem writeBack_ok {before : FileTree} {texts : List (String × Option String)}
    (world : World) (h : Rewritten before texts world.tree) (count : Nat) {path : String}
    {result : Option String} (hread : ∃ text, before.read path = .ok text)
    (hsame : ∀ other text text', (other, some text') ∈ texts → result = some text →
      before.locate false other = before.locate false path → text' = text) :
    ∃ count' after, writeBack count (path, result) world = .ok count' { world with tree := after } ∧
      Rewritten before (texts ++ [(path, result)]) after := by
  cases result with
  | none => exact ⟨count, world.tree, rfl, h.skip path⟩
  | some text =>
    obtain ⟨original, horiginal⟩ := hread
    obtain ⟨place, hlocate, hget⟩ := FileTree.read_ok_iff.1 horiginal
    obtain ⟨current, hcurrent⟩ := h.alike.text hget
    have hlocate' : world.tree.locate false path = .ok place :=
      (h.alike.locate _ _).trans hlocate
    have hread' : world.tree.read path = .ok current :=
      FileTree.read_ok_iff.2 ⟨place, hlocate', hcurrent⟩
    have hasked : readFile path world = .ok current world :=
      ask_of_ok (by rw [hread']; rfl)
    rw [writeBack, bind_of_ok hasked]
    by_cases heq : text = current
    · subst heq
      exact ⟨count, world.tree, by simp [pure, EStateM.pure], h.same hread'⟩
    · have hwritten : writeFile path text world =
          .ok () { world with tree := world.tree.insert place (.file (.text text)) } := by
        simp only [writeFile, FileTree.write_of_read hlocate' hread']
      refine ⟨count + 1, _, ?_, h.write hlocate hread' ?_⟩
      · rw [if_neg (by simpa using heq), bind_of_ok hwritten]
        rfl
      · intro other text' hmem hother
        exact hsame other text text' hmem rfl (hother.trans hlocate.symm)

theorem writeBacks_ok (world : World) (texts : List (String × Option String))
    (hread : ∀ path result, (path, result) ∈ texts → ∃ text, world.tree.read path = .ok text)
    (hsame : ∀ path text other text', (path, some text) ∈ texts →
      (other, some text') ∈ texts →
      world.tree.locate false other = world.tree.locate false path → text' = text) :
    ∃ count after, texts.foldlM writeBack 0 world = .ok count { world with tree := after } ∧
      Rewritten world.tree texts after := by
  induction texts using List.reverseRecOn with
  | nil => exact ⟨0, world.tree, rfl, .nil world.tree⟩
  | append_singleton texts file ih =>
    obtain ⟨path, result⟩ := file
    obtain ⟨count, after, hdone, h⟩ :=
      ih (fun path result hmem => hread path result (by simp [hmem]))
        (fun path text other text' hmem hmem' =>
          hsame path text other text' (by simp [hmem]) (by simp [hmem']))
    have hpath : ∀ other text text', (other, some text') ∈ texts → result = some text →
        world.tree.locate false other = world.tree.locate false path → text' = text := by
      rintro other text text' hmem rfl
      exact hsame path text other text' (by simp) (by simp [hmem])
    obtain ⟨count', after', hdone', h'⟩ :=
      writeBack_ok { world with tree := after } h count (hread path result (by simp)) hpath
    refine ⟨count', after', ?_, h'⟩
    rw [List.foldlM_append, bind_of_ok hdone, List.foldlM_cons, bind_of_ok hdone']
    rfl

/-- With all texts at hand, the files are rewritten. -/
theorem runTransform_ok (session : Session) (world : World) {files : List String}
    (hread : ∀ path ∈ files, ∃ text, world.tree.read path = .ok text) :
    ∃ (texts : List (String × Option String)) (count : Nat) (after : FileTree),
      transformFiles world.tree session files = .ok texts ∧
      runTransform session files true world =
        .ok () ⟨after, world.output, world.messages ++ ("Rewrote " ++ toString count ++ " of " ++
          toString texts.length ++ " files\n")⟩ ∧
      Rewritten world.tree texts after := by
  obtain ⟨texts, htexts⟩ := transformFiles_ok session hread
  obtain ⟨-, hfound⟩ := mem_transformFiles htexts
  obtain ⟨count, after, hdone, hrewritten⟩ := writeBacks_ok world texts
    (fun path result hmem => hread path (hfound path result hmem).1)
    (by
      intro path text other text' hmem hmem' hlocate
      obtain ⟨hother, htext'⟩ := hfound _ _ hmem'
      obtain ⟨written, hwritten⟩ := hread other hother
      have hsame := Session.transformFile_congr hlocate hwritten htext' (hfound _ _ hmem).2
      exact Option.some.inj hsame)
  refine ⟨texts, count, after, htexts, ?_, hrewritten⟩
  rw [runTransform, bind_of_ok (ask_of_ok htexts), if_pos rfl, bind_of_ok hdone]
  rfl

/-- Where a text cannot be found, the run ends before anything is written. -/
theorem runTransform_error (world : World) {files : List String} {write : Bool} {report : Report}
    (h : transformFiles world.tree session files = .error report) :
    runTransform session files write world = .error report world := by
  rw [runTransform, bind_of_error (ask_of_error h)]

/-- What is at the place of a listed file with its text left alone stays there. -/
theorem Rewritten.read_none {files : List String} {texts : List (String × Option String)}
    {after : FileTree} (h : Rewritten tree texts after)
    (htexts : transformFiles tree session files = .ok texts) {path text : String}
    (hread : tree.read path = .ok text) (hnone : session.transformFile tree path = .ok none) :
    after.read path = .ok text := by
  obtain ⟨place, hlocate, hget⟩ := FileTree.read_ok_iff.1 hread
  refine FileTree.read_ok_iff.2 ⟨place, (h.alike.locate _ _).trans hlocate, ?_⟩
  rw [h.kept place, hget]
  intro other text' hmem hother
  obtain ⟨-, hsome⟩ := (mem_transformFiles htexts).2 other (some text') hmem
  cases Session.transformFile_congr (hlocate.trans hother.symm) hread hnone hsome

theorem answer_transform {root : String} {overrides : Overrides}
    (h : analyze tree root overrides = .ok session) (files : List String) (write : Bool) :
    answer tree (.run (.transform files root overrides write)) =
      .ofResult (runTransform session files write ⟨tree, "", ""⟩) := by
  rw [answer, execute, bind_of_ok (ask_of_ok h)]

theorem answer_transform_of_error {root : String} {overrides : Overrides} {report : Report}
    (h : analyze tree root overrides = .error report) (files : List String) (write : Bool) :
    answer tree (.run (.transform files root overrides write)) =
      .ofResult (.error report ⟨tree, "", ""⟩) := by
  rw [answer, execute, bind_of_error (ask_of_error h)]

/-- If the analysis fails, or one of the files cannot be read, the tree stays as it is.
Otherwise each file holds the text found for it in the tree before anything was written,
the files without such a text hold what they held, and what no path leads to stays as it
is. Paths may be repeated, and several may lead to one file. -/
theorem transform_write_exact (tree : FileTree) (files : List String) (root : String)
    (overrides : Overrides) :
    let outcome := answer tree (.run (.transform files root overrides true))
    (∀ report, analyze tree root overrides = .error report →
      outcome.code = 1 ∧ outcome.tree = tree) ∧
    (∀ path ∈ files, ∀ cause, tree.read path = .error cause →
      outcome.code = 1 ∧ outcome.tree = tree) ∧
    (∀ session, analyze tree root overrides = .ok session →
      (∀ path ∈ files, ∃ text, tree.read path = .ok text) →
      outcome.code = 0 ∧
      (∀ path ∈ files, ∃ result, session.transformFile tree path = .ok result ∧
        match result with
        | some text => outcome.tree.read path = .ok text
        | none => outcome.tree.read path = tree.read path) ∧
      (∀ place, (∀ path ∈ files, tree.locate false path ≠ .ok place) →
        outcome.tree.get? place = tree.get? place)) := by
  intro outcome
  cases hsession : analyze tree root overrides with
  | error report =>
    have houtcome : outcome = .ofResult (.error report ⟨tree, "", ""⟩) :=
      answer_transform_of_error hsession files true
    rw [houtcome]
    exact ⟨fun _ _ => ⟨rfl, rfl⟩, fun _ _ _ _ => ⟨rfl, rfl⟩, fun _ h => by cases h⟩
  | ok session =>
    have houtcome : outcome = .ofResult (runTransform session files true ⟨tree, "", ""⟩) :=
      answer_transform hsession files true
    refine ⟨(fun _ h => by cases h), fun path hpath cause hread => ?_, fun _ h hread => ?_⟩
    · obtain ⟨report, hreport⟩ := transformFiles_error session hpath hread
      rw [houtcome, runTransform_error ⟨tree, "", ""⟩ hreport]
      exact ⟨rfl, rfl⟩
    · cases h
      obtain ⟨texts, count, after, htexts, hdone, hrewritten⟩ :=
        runTransform_ok session ⟨tree, "", ""⟩ hread
      rw [houtcome, hdone]
      refine ⟨rfl, fun path hpath => ?_, fun place hplace => ?_⟩
      · obtain ⟨result, hmem⟩ := (mem_transformFiles htexts).1 path hpath
        obtain ⟨-, hresult⟩ := (mem_transformFiles htexts).2 path result hmem
        refine ⟨result, hresult, ?_⟩
        cases result with
        | some text => exact hrewritten.written path text hmem
        | none =>
          obtain ⟨text, htext⟩ := hread path hpath
          exact (hrewritten.read_none htexts htext hresult).trans htext.symm
      · refine hrewritten.kept place fun path text hmem => hplace path ?_
        exact ((mem_transformFiles htexts).2 path _ hmem).1

def noOverrides : Overrides := ⟨none, none, false⟩

def deskSource (argument : String) : String :=
  "import \x7b Size \x7d from \"./size\";\nuse(" ++ argument ++ ");\n"

/-- A project with a second name for one of its files, and with a file without entries. -/
def desk : FileTree :=
  ⟨.ofList [(["p"], Entry.directory),
      (["p", "size.ts"], Entry.file (.text "export const enum Size \x7b Small = 1 \x7d\n")),
      (["p", "desk.ts"], Entry.file (.text (deskSource "Size.Small"))),
      (["p", "again"], Entry.link "desk.ts"), (["p", "note"], Entry.file (.text "Size.Small\n"))],
    ["p"]⟩

theorem desk_session :
    ∃ session, analyze desk "." noOverrides = .ok session ∧
      session.transformFile desk "desk.ts" = .ok (some (deskSource "1")) ∧
      session.transformFile desk "again" = .ok (some (deskSource "1")) ∧
      session.transformFile desk "note" = .ok none := by
  have hcheck : (analyze desk "." noOverrides).toOption.any (fun session =>
      decide ((session.transformFile desk "desk.ts").toOption = some (some (deskSource "1"))) &&
      (decide ((session.transformFile desk "again").toOption = some (some (deskSource "1"))) &&
      decide ((session.transformFile desk "note").toOption = some none))) = true := by
    decide +kernel
  obtain ⟨session, hsession, hfacts⟩ := exists_ok_of_any hcheck
  simp only [Bool.and_eq_true, decide_eq_true_eq] at hfacts
  exact ⟨session, hsession, ok_of_toOption hfacts.1, ok_of_toOption hfacts.2.1,
    ok_of_toOption hfacts.2.2⟩

def deskOutcome (files : List String) : Outcome :=
  answer desk (.run (.transform files "." noOverrides true))

/-- A file is listed twice under two names, and one without a text is left as it is; with a
file that is missing, nothing is written. -/
theorem transform_write_exact_desk :
    let outcome := deskOutcome ["desk.ts", "again", "note", "desk.ts"]
    let failed := deskOutcome ["desk.ts", "missing.ts"]
    outcome.code = 0 ∧ outcome.tree.read "desk.ts" = .ok (deskSource "1") ∧
      outcome.tree.read "again" = .ok (deskSource "1") ∧
      outcome.tree.read "note" = .ok "Size.Small\n" ∧
      outcome.tree.get? ["p", "size.ts"] = desk.get? ["p", "size.ts"] ∧
      failed.code = 1 ∧ failed.tree = desk := by
  have hreads : ["desk.ts", "again", "note"].map (fun path => (desk.read path).toOption) =
      [some (deskSource "Size.Small"), some (deskSource "Size.Small"), some "Size.Small\n"] := by
    decide +kernel
  have hplaces : ∀ path ∈ ["desk.ts", "again", "note", "desk.ts"],
      (desk.locate false path).toOption ≠ some ["p", "size.ts"] := by
    decide +kernel
  have hmissing : (match desk.read "missing.ts" with
      | .ok _ => false
      | .error _ => true) = true := by
    decide +kernel
  simp only [List.map_cons, List.map_nil, List.cons.injEq, and_true] at hreads
  obtain ⟨hdesk, hagain, hnote⟩ := hreads
  obtain ⟨session, hsession, hdeskText, hagainText, hnoteText⟩ := desk_session
  have hfound : ∀ path ∈ ["desk.ts", "again", "note", "desk.ts"],
      ∃ text, desk.read path = .ok text := by
    simp only [List.forall_mem_cons, List.not_mem_nil, false_implies, implies_true, and_true]
    exact ⟨⟨_, ok_of_toOption hdesk⟩, ⟨_, ok_of_toOption hagain⟩, ⟨_, ok_of_toOption hnote⟩,
      ⟨_, ok_of_toOption hdesk⟩⟩
  obtain ⟨-, -, hwritten⟩ :=
    transform_write_exact desk ["desk.ts", "again", "note", "desk.ts"] "." noOverrides
  obtain ⟨-, hfailed, -⟩ :=
    transform_write_exact desk ["desk.ts", "missing.ts"] "." noOverrides
  obtain ⟨hcode, hfiles, hkept⟩ := hwritten session hsession hfound
  have hholds {path text : String} (hpath : path ∈ ["desk.ts", "again", "note", "desk.ts"])
      (htext : session.transformFile desk path = .ok (some text)) :
      (deskOutcome ["desk.ts", "again", "note", "desk.ts"]).tree.read path = .ok text := by
    obtain ⟨result, hresult, hread⟩ := hfiles path hpath
    cases htext.symm.trans hresult
    unfold deskOutcome
    exact hread
  refine ⟨hcode, hholds (by simp) hdeskText, hholds (by simp) hagainText, ?_, ?_, ?_⟩
  · obtain ⟨result, hresult, hread⟩ := hfiles "note" (by simp)
    cases hnoteText.symm.trans hresult
    unfold deskOutcome
    exact hread.trans (ok_of_toOption hnote)
  · refine hkept _ fun path hpath hlocate => hplaces path hpath ?_
    rw [hlocate]
    rfl
  · unfold deskOutcome
    cases hread : desk.read "missing.ts" with
    | ok text => simp [hread] at hmissing
    | error cause => exact hfailed "missing.ts" (by simp) cause hread

end CommandLine

end EnumInline
