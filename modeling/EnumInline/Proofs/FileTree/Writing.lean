import EnumInline.FileTree.Lookup

/-!
What writing to files leaves as it was. Finding a place asks a tree for its
directories and links only, and writing a text to a file that holds one changes
neither. Every path therefore leads to the same place before and after, and each
file but the written one holds what it held.
-/

namespace EnumInline

/-- An entry without the text that it may hold. -/
def Entry.outline : Entry → Entry
  | .file (.text _) => .file (.text "")
  | entry => entry

namespace FileTree

@[simp] theorem get?_root (tree : FileTree) : tree.get? [] = some .directory := rfl

theorem get?_insert {tree : FileTree} {place other : Place} {entry : Entry}
    (hplace : place ≠ []) :
    (tree.insert place entry).get? other =
      if other = place then some entry else tree.get? other := by
  unfold get? insert
  by_cases hother : other = place
  · subst hother
    simp [hplace]
  · simp [Std.ExtTreeMap.getElem?_insert, Ne.symm hother, hother]

/-- What is read at a place stands in the tree, the root apart. -/
theorem root_or_getElem?_of_get? {tree : FileTree} {place : Place} {entry : Entry}
    (h : tree.get? place = some entry) :
    place = [] ∧ entry = .directory ∨ tree.entries[place]? = some entry := by
  unfold get? at h
  split at h
  case isTrue hroot => exact Or.inl ⟨by simpa using hroot, (Option.some.inj h).symm⟩
  case isFalse => exact Or.inr h

theorem getElem?_of_get? {tree : FileTree} {place : Place} {entry : Entry}
    (h : tree.get? place = some entry) (hentry : entry ≠ .directory) :
    tree.entries[place]? = some entry :=
  (root_or_getElem?_of_get? h).resolve_left fun hroot => hentry hroot.2

@[simp] theorem insert_workingDirectory (tree : FileTree) (place : Place)
    (entry : Entry) : (tree.insert place entry).workingDirectory =
      tree.workingDirectory := rfl

/-- Two trees with the same directories, links and files, which may differ in the
texts that files hold. -/
structure Alike (before after : FileTree) : Prop where
  workingDirectory : after.workingDirectory = before.workingDirectory
  entries (place : Place) :
    after.entries[place]?.map Entry.outline = before.entries[place]?.map Entry.outline

namespace Alike

variable {before middle after : FileTree}

theorem refl (tree : FileTree) : Alike tree tree := ⟨rfl, fun _ => rfl⟩

theorem trans (h : Alike before middle) (h' : Alike middle after) :
    Alike before after :=
  ⟨h'.workingDirectory.trans h.workingDirectory,
    fun place => (h'.entries place).trans (h.entries place)⟩

theorem outline (h : Alike before after) (place : Place) :
    (after.get? place).map Entry.outline = (before.get? place).map Entry.outline := by
  unfold get?
  split
  next => rfl
  next => exact h.entries place

/-- What is at a place in two such trees. -/
theorem entry (h : Alike before after) (place : Place) :
    after.get? place = before.get? place ∨
      ∃ text text', before.get? place = some (.file (.text text)) ∧
        after.get? place = some (.file (.text text')) := by
  have hplace := h.outline place
  cases hbefore : before.get? place with
  | none => simp_all
  | some entry =>
    cases hafter : after.get? place with
    | none => simp_all
    | some entry' =>
      rw [hbefore, hafter] at hplace
      rcases entry with (text | size) | _ | target <;>
        rcases entry' with (text' | size') | _ | target' <;>
        simp_all [Entry.outline]

/-- A file that holds a text keeps holding one. -/
theorem text (h : Alike before after) {place : Place} {text : String}
    (hplace : before.get? place = some (.file (.text text))) :
    ∃ text', after.get? place = some (.file (.text text')) := by
  rcases h.entry place with hsame | ⟨_, text', _, hafter⟩
  · exact ⟨text, hsame.trans hplace⟩
  · exact ⟨text', hafter⟩

theorem directory (h : Alike before after) (place : Place) :
    (after.get? place == some .directory) =
      (before.get? place == some .directory) := by
  rcases h.entry place with hsame | ⟨_, _, hbefore, hafter⟩
  · rw [hsame]
  · rw [hbefore, hafter]
    rfl

theorem walk (h : Alike before after) (creating : Bool) (here : Place)
    (steps : List String) :
    after.walk creating here steps = before.walk creating here steps := by
  induction steps generalizing here with
  | nil => rfl
  | cons step rest ih =>
    unfold FileTree.walk
    rcases h.entry here with hhere | ⟨_, _, hbefore, hafter⟩
    · rcases h.entry (here ++ [step]) with hnext | ⟨_, _, hbefore, hafter⟩
      · simp only [hhere, hnext, ih]
      · simp only [hhere, hbefore, hafter, ih]
    · simp only [hbefore, hafter]

theorem follow (h : Alike before after) (creating : Bool) (links : Nat)
    (here : Place) (steps : List String) :
    after.follow creating links here steps =
      before.follow creating links here steps := by
  induction links generalizing here steps with
  | zero =>
    unfold FileTree.follow
    rw [h.walk]
  | succ links ih =>
    unfold FileTree.follow
    simp only [h.walk, ih]

theorem locate (h : Alike before after) (creating : Bool) (path : String) :
    after.locate creating path = before.locate creating path := by
  simp only [FileTree.locate, origin, h.workingDirectory, h.follow]

theorem canonicalize (h : Alike before after) (path : String) :
    after.canonicalize path = before.canonicalize path := by
  simp only [FileTree.canonicalize, h.locate]

theorem contains (h : Alike before after) (path : String) :
    after.contains path = before.contains path := by
  simp only [FileTree.contains, h.locate]

/-- Writing a text over a text. -/
theorem insert {tree : FileTree} {place : Place} {text : String}
    (hplace : tree.get? place = some (.file (.text text))) (text' : String) :
    Alike tree (tree.insert place (.file (.text text'))) := by
  have hentry : tree.entries[place]? = some (.file (.text text)) := by
    unfold get? at hplace
    split at hplace
    next => cases hplace
    next => exact hplace
  refine ⟨rfl, fun other => ?_⟩
  unfold FileTree.insert
  rw [Std.ExtTreeMap.getElem?_insert]
  split
  next hother =>
    rw [← Std.LawfulEqOrd.eq_of_compare hother, hentry]
    rfl
  next => rfl

end Alike

variable {tree : FileTree} {path : String} {place : Place}

theorem read_ok_iff {text : String} :
    tree.read path = .ok text ↔
      ∃ place, tree.locate false path = .ok place ∧
        tree.get? place = some (.file (.text text)) := by
  unfold read content
  cases hlocate : tree.locate false path with
  | error cause => simp
  | ok place =>
    rcases hplace : tree.get? place with _ | ((written | size) | _ | target) <;>
      simp [hplace]

/-- A file that can be read stays so. -/
theorem Alike.exists_read {before after : FileTree} (h : before.Alike after)
    {text : String} (hread : before.read path = .ok text) :
    ∃ text', after.read path = .ok text' := by
  obtain ⟨place, hlocate, hget⟩ := read_ok_iff.1 hread
  obtain ⟨text', hget'⟩ := h.text hget
  exact ⟨text', read_ok_iff.2 ⟨place, (h.locate _ _).trans hlocate, hget'⟩⟩

theorem get?_of_read {text : String} (hlocate : tree.locate false path = .ok place)
    (hread : tree.read path = .ok text) :
    tree.get? place = some (.file (.text text)) := by
  obtain ⟨place', hplace', hget⟩ := read_ok_iff.1 hread
  cases hlocate.symm.trans hplace'
  exact hget

theorem canonicalize_of_read {text : String} (hread : tree.read path = .ok text) :
    ∃ place, tree.locate false path = .ok place ∧
      tree.canonicalize path = .ok place.path := by
  obtain ⟨place, hlocate, -⟩ := read_ok_iff.1 hread
  exact ⟨place, hlocate, by simp [canonicalize, hlocate, Except.map]⟩

/-- Paths that lead to one place are read alike. -/
theorem read_congr {other : String}
    (h : tree.locate false path = tree.locate false other) :
    tree.read path = tree.read other := by
  simp only [read, content, h]

/-- A step that can be taken without creating anything, and what is left of the path
after it. -/
theorem walk_cons_ok {here : Place} {step : String} {rest : List String} {walk : Walk}
    (h : tree.walk false here (step :: rest) = .ok walk) :
    tree.get? here = some .directory ∧
      ((∃ next, tree.walk false next rest = .ok walk ∧
          (endsInSlash rest = false →
            tree.walk true here (step :: rest) = tree.walk true next rest) ∧
          (rest = [] → step = "" → next = here)) ∨
        ∃ target, walk = .atLink here target rest ∧ step ≠ "" ∧
          (endsInSlash rest = false → tree.walk true here (step :: rest) = .ok walk)) := by
  cases hhere : tree.get? here with
  | none =>
    simp only [FileTree.walk, hhere] at h
    cases h
  | some entry =>
    cases entry with
    | file content =>
      simp only [FileTree.walk, hhere] at h
      cases h
    | link target =>
      simp only [FileTree.walk, hhere] at h
      cases h
    | directory =>
      refine ⟨rfl, ?_⟩
      simp only [FileTree.walk, hhere] at h ⊢
      by_cases hidle : Path.isIdle step
      · rw [if_pos hidle] at h
        exact .inl ⟨here, h, fun _ => if_pos hidle, fun _ _ => rfl⟩
      rw [if_neg hidle] at h
      simp only [if_neg hidle]
      have hstep : step ≠ "" := by
        rintro rfl
        exact hidle rfl
      by_cases hup : step == ".."
      · rw [if_pos hup] at h
        exact .inl ⟨here.dropLast, h, fun _ => if_pos hup, fun _ hempty => absurd hempty hstep⟩
      rw [if_neg hup] at h
      simp only [if_neg hup]
      rw [Bool.false_and, if_neg Bool.false_ne_true] at h
      cases hnext : tree.get? (here ++ [step]) with
      | none =>
        simp [hnext] at h
      | some entry =>
        cases entry with
        | link target =>
          simp only [hnext] at h ⊢
          cases h
          exact .inr ⟨target, rfl, hstep, fun hslash => by simp [hslash]⟩
        | file content =>
          simp only [hnext] at h ⊢
          exact .inl ⟨_, h, fun hslash => by simp [hslash],
            fun _ hempty => absurd hempty hstep⟩
        | directory =>
          simp only [hnext] at h ⊢
          exact .inl ⟨_, h, fun hslash => by simp [hslash],
            fun _ hempty => absurd hempty hstep⟩

/-- A path that ends in a slash leads to a directory, or to a link from which the
rest of the path ends in a slash too. -/
theorem walk_of_slash {here : Place} {steps : List String} {walk : Walk}
    (hlast : steps.getLast? = some "") (h : tree.walk false here steps = .ok walk) :
    (∃ place, walk = .arrived place ∧ tree.get? place = some .directory) ∨
      ∃ directory target rest, walk = .atLink directory target rest ∧
        rest.getLast? = some "" := by
  induction steps generalizing here with
  | nil => cases hlast
  | cons step rest ih =>
    obtain ⟨hhere, ⟨next, hnext, -, hidle⟩ | ⟨target, rfl, hstep, -⟩⟩ := walk_cons_ok h
    · cases rest with
      | nil =>
        cases hlast
        cases hnext
        exact .inl ⟨next, rfl, hidle rfl rfl ▸ hhere⟩
      | cons step' rest => exact ih hlast hnext
    · cases rest with
      | nil => exact absurd (Option.some.inj hlast) hstep
      | cons step' rest => exact .inr ⟨here, target, _, rfl, hlast⟩

/-- The directory from which the target of a link is followed. -/
abbrev linkBase (directory : Place) (target : String) : Place :=
  if Path.isAbsolute target then [] else directory

/-- A path leads to a place at once, or through a link. -/
theorem follow_ok {creating : Bool} {links : Nat} {here : Place} {steps : List String}
    (h : tree.follow creating links here steps = .ok place) :
    tree.walk creating here steps = .ok (.arrived place) ∨
      ∃ fewer directory target rest, links = fewer + 1 ∧
        tree.walk creating here steps = .ok (.atLink directory target rest) ∧
        tree.follow creating fewer (linkBase directory target)
          (Path.steps target ++ rest) = .ok place := by
  unfold FileTree.follow at h
  split at h
  next => cases h
  next found hwalk =>
    cases h
    exact .inl hwalk
  next directory target rest hwalk =>
    cases links with
    | zero => cases h
    | succ fewer => exact .inr ⟨fewer, directory, target, rest, rfl, hwalk, h⟩

/-- A path that ends in a slash leads to a directory. -/
theorem directory_of_slash {links : Nat} {here : Place} {steps : List String}
    (hlast : steps.getLast? = some "")
    (h : tree.follow false links here steps = .ok place) :
    tree.get? place = some .directory := by
  induction links using Nat.strongRecOn generalizing here steps with
  | ind links ih =>
    rcases follow_ok h with hwalk | ⟨fewer, _, _, _, hlinks, hwalk, hrest⟩
    · rcases walk_of_slash hlast hwalk with ⟨_, hplace, hget⟩ | ⟨_, _, _, hlink, -⟩
      · cases hplace
        exact hget
      · cases hlink
    · rcases walk_of_slash hlast hwalk with ⟨_, hplace, -⟩ | ⟨_, _, _, hlink, hslash⟩
      · cases hplace
      · cases hlink
        refine ih fewer (by omega) ?_ hrest
        rw [List.getLast?_append, hslash]
        rfl

theorem getLast?_of_endsInSlash {rest : List String} (h : endsInSlash rest = true) :
    rest.getLast? = some "" := by
  simp only [endsInSlash, Bool.and_eq_true, Bool.not_eq_true', List.all_eq_true,
    List.isEmpty_eq_false_iff, beq_iff_eq] at h
  obtain ⟨hne, hall⟩ := h
  rw [List.getLast?_eq_some_getLast hne, hall _ (List.getLast_mem hne)]

/-- Unless it ends in a slash, a path along entries that exist is taken alike whether
or not its last step could create one. -/
theorem walk_creating {here : Place} {steps : List String} {walk : Walk}
    (hlast : steps.getLast? ≠ some "") (h : tree.walk false here steps = .ok walk) :
    tree.walk true here steps = .ok walk := by
  induction steps generalizing here with
  | nil => exact h
  | cons step rest ih =>
    have hslash : endsInSlash rest = false := by
      rw [← Bool.not_eq_true]
      intro hslash
      have hrest := getLast?_of_endsInSlash hslash
      apply hlast
      rw [List.getLast?_cons, hrest]
      rfl
    obtain ⟨-, ⟨next, hnext, hwalk, -⟩ | ⟨target, rfl, -, hwalk⟩⟩ := walk_cons_ok h
    · rw [hwalk hslash]
      refine ih (fun hrest => hlast ?_) hnext
      rw [List.getLast?_cons, hrest]
      rfl
    · exact hwalk hslash

theorem follow_creating {links : Nat} {here : Place} {steps : List String}
    (hplace : tree.get? place ≠ some .directory)
    (h : tree.follow false links here steps = .ok place) :
    tree.follow true links here steps = .ok place := by
  induction links using Nat.strongRecOn generalizing here steps with
  | ind links ih =>
    have hlast : steps.getLast? ≠ some "" :=
      fun hlast => hplace (directory_of_slash hlast h)
    unfold FileTree.follow
    rcases follow_ok h with hwalk | ⟨fewer, _, _, _, rfl, hwalk, hrest⟩
    · simp only [walk_creating hlast hwalk]
    · simp only [walk_creating hlast hwalk]
      exact ih fewer (by omega) hrest

/-- The place of a file is the same whether it is read or written. -/
theorem locate_creating (hplace : tree.get? place ≠ some .directory)
    (h : tree.locate false path = .ok place) : tree.locate true path = .ok place := by
  unfold locate at h ⊢
  split at h
  next => cases h
  next hempty =>
    rw [if_neg hempty]
    split at h
    next => cases h
    next hname =>
      rw [if_neg hname]
      exact follow_creating hplace h

/-- A file that holds a text can be written, and the new text is put in its place. -/
theorem write_of_read {text : String} (hlocate : tree.locate false path = .ok place)
    (hread : tree.read path = .ok text) (text' : String) :
    tree.write path text' = .ok (tree.insert place (.file (.text text'))) := by
  have hplace := get?_of_read hlocate hread
  have hlocate' : tree.locate true path = .ok place :=
    locate_creating (by simp [hplace]) hlocate
  simp [write, hlocate', hplace]

end FileTree

end EnumInline
