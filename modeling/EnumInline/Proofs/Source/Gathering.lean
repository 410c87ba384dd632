import EnumInline.Proofs.FileTree.Writing
import EnumInline.Proofs.Path.Components
import EnumInline.Source.Gather
import Mathlib.Data.List.Dedup
import Mathlib.Data.List.Induction

/-!
Which files are gathered. The tree knows its places in their order, so that nothing
has to be sorted. A walk through the directories that looks at one entry after the
other, stays out of directories with an excluded name and sorts the files at the end
finds the same files, in whatever order it comes to the entries.
-/

namespace EnumInline

namespace FileTree

/-- All names in a tree are names that files can have. -/
def IsNamed (tree : FileTree) : Prop :=
  ∀ place entry, tree.entries[place]? = some entry →
    place ≠ [] ∧ ∀ name ∈ place, Path.IsName name

variable {tree : FileTree} {place : Place} {entry : Entry}

theorem isNamed_empty : empty.IsNamed := by
  intro place entry h
  simp [empty] at h

theorem IsNamed.insert (htree : tree.IsNamed) (hplace : place ≠ [])
    (hnames : ∀ name ∈ place, Path.IsName name) : (tree.insert place entry).IsNamed := by
  intro other found hfound
  rw [FileTree.insert, Std.ExtTreeMap.getElem?_insert] at hfound
  split at hfound
  case isTrue hsame =>
    obtain rfl := Std.LawfulEqOrd.eq_of_compare hsame
    exact ⟨hplace, hnames⟩
  case isFalse => exact htree other found hfound

theorem IsNamed.get? (htree : tree.IsNamed) (h : tree.entries[place]? = some entry) :
    tree.get? place = some entry := by
  rw [FileTree.get?, if_neg (by simpa using (htree place entry h).1), h]

end FileTree

namespace Source

variable {tree : FileTree} {pattern : FilePattern} {excludes : List String} {place : Place}
  {names : List String} {entry : Entry} {start : String}

/-- Every place on the way from `place` along `names`, the last one apart, is a
directory. -/
def IsWay (tree : FileTree) (place : Place) (names : List String) : Prop :=
  ∀ outer behind, names = outer ++ behind → behind ≠ [] →
    tree.get? (place ++ outer) = some .directory

/-- There is a file at the end of `names`, which lead to it from the directory at
`place` through directories alone and fit the pattern, and none of these directories
has an excluded name. -/
structure IsSource (tree : FileTree) (pattern : FilePattern) (excludes : List String)
    (place : Place) (names : List String) : Prop where
  file : ∃ content, tree.get? (place ++ names) = some (.file content)
  way : IsWay tree place names
  kept : ∀ name ∈ names.dropLast, name ∉ excludes
  fits : Source.fits pattern names = true

theorem isWay_iff : tree.isWay place names = true ↔ IsWay tree place names := by
  induction names generalizing place with
  | nil =>
    refine iff_of_true rfl fun outer behind hnames hbehind => ?_
    exact absurd (List.append_eq_nil_iff.1 hnames.symm).2 hbehind
  | cons name rest ih =>
    rw [FileTree.isWay, Bool.and_eq_true, beq_iff_eq, ih]
    constructor
    · rintro ⟨hplace, hrest⟩ outer behind hnames hbehind
      cases outer with
      | nil => rwa [List.append_nil]
      | cons head outer =>
        obtain ⟨rfl, rfl⟩ := List.cons.inj hnames
        simpa using hrest outer behind rfl hbehind
    · refine fun hway => ⟨by simpa using hway [] (name :: rest) rfl (by simp), ?_⟩
      intro outer behind hrest hbehind
      simpa using hway (name :: outer) behind (by rw [hrest, List.cons_append]) hbehind

theorem IsSource.ne_nil (h : IsSource tree pattern excludes place names)
    (hdirectory : tree.get? place = some .directory) : names ≠ [] := by
  rintro rfl
  obtain ⟨content, hfile⟩ := h.file
  rw [List.append_nil, hdirectory] at hfile
  cases hfile

theorem IsSource.isName (htree : tree.IsNamed) (h : IsSource tree pattern excludes place names) :
    ∀ name ∈ names, Path.IsName name := by
  obtain ⟨content, hfile⟩ := h.file
  have hentry := FileTree.getElem?_of_get? hfile (by simp)
  exact fun name hname => (htree _ _ hentry).2 name (List.mem_append_right _ hname)

theorem gathered?_eq_some_iff {found : Place × Entry} :
    gathered? tree pattern excludes place found = some names ↔
      ∃ content, found = (place ++ names, .file content) ∧ IsWay tree place names ∧
        (∀ name ∈ names.dropLast, name ∉ excludes) ∧ fits pattern names = true := by
  obtain ⟨target, entry⟩ := found
  cases entry with
  | directory => simp [gathered?]
  | link => simp [gathered?]
  | file content =>
    constructor
    · intro h
      simp only [gathered?] at h
      split at h
      case isFalse => cases h
      case isTrue hgathered =>
        obtain rfl := Option.some.inj h
        simp only [Bool.and_eq_true, List.isPrefixOf_iff_prefix] at hgathered
        obtain ⟨⟨⟨⟨behind, rfl⟩, hway⟩, hkept⟩, hfits⟩ := hgathered
        rw [List.drop_left] at hway hkept hfits ⊢
        exact ⟨content, rfl, isWay_iff.1 hway, by simpa using hkept, hfits⟩
    · rintro ⟨content, hfound, hway, hkept, hfits⟩
      obtain ⟨rfl, -⟩ := Prod.mk.inj hfound
      have hkept' : names.dropLast.any excludes.contains = false := by simpa using hkept
      simp [gathered?, isWay_iff.2 hway, hkept', hfits]

theorem mem_gatherBelow (htree : tree.IsNamed) :
    names ∈ gatherBelow tree pattern excludes place ↔
      IsSource tree pattern excludes place names := by
  simp only [gatherBelow, List.mem_filterMap, gathered?_eq_some_iff, Prod.exists,
    Std.ExtTreeMap.mem_toList_iff_getElem?_eq_some]
  constructor
  · rintro ⟨_, _, hentry, content, hfound, hway, hkept, hfits⟩
    obtain ⟨rfl, rfl⟩ := Prod.mk.inj hfound
    exact ⟨⟨content, htree.get? hentry⟩, hway, hkept, hfits⟩
  · rintro ⟨⟨content, hfile⟩, hway, hkept, hfits⟩
    exact ⟨_, _, FileTree.getElem?_of_get? hfile (by simp), content, rfl, hway, hkept, hfits⟩

/-- The tree holds them in their order. -/
theorem pairwise_gatherBelow :
    (gatherBelow tree pattern excludes place).Pairwise (compare · · = .lt) := by
  refine List.Pairwise.filterMap _ ?_ Std.ExtTreeMap.ordered_keys_toList
  intro first second hlt names hnames others hothers
  obtain ⟨_, rfl, -⟩ := gathered?_eq_some_iff.1 hnames
  obtain ⟨_, rfl, -⟩ := gathered?_eq_some_iff.1 hothers
  rwa [Path.compare_append_left] at hlt

/-- What a walk from the directory at `place` comes to: the directory itself, and what
is in a directory that it comes to, other than directories with an excluded name. It
comes to links, but does not follow them. -/
inductive Visits (tree : FileTree) (excludes : List String) (place : Place) :
    List String → Entry → Prop
  | start {entry : Entry} (hentry : tree.get? place = some entry) :
      Visits tree excludes place [] entry
  | inside {names : List String} {name : String} {entry : Entry}
      (houter : Visits tree excludes place names .directory)
      (hentry : tree.get? (place ++ (names ++ [name])) = some entry)
      (hkept : entry = .directory → name ∉ excludes) :
      Visits tree excludes place (names ++ [name]) entry

/-- The entries that a walk comes to, each of them once. -/
structure IsWalk (tree : FileTree) (excludes : List String) (place : Place)
    (visited : List (List String × Entry)) : Prop where
  nodup : visited.Nodup
  mem_iff : ∀ names entry, (names, entry) ∈ visited ↔ Visits tree excludes place names entry

/-- The path of a visited entry if it is a file that fits the pattern. -/
def listed? (pattern : FilePattern) : List String × Entry → Option (List String)
  | (names, .file _) => if fits pattern names then some names else none
  | _ => none

/-- The path of what `names` lead to from the directory `start`. -/
def pathOf (start : String) (names : List String) : String :=
  Path.join start ("/".intercalate names)

/-- The files among the visited entries, sorted by their paths. -/
def sortedFiles (start : String) (pattern : FilePattern)
    (visited : List (List String × Entry)) : List String :=
  ((visited.filterMap (listed? pattern)).map (pathOf start)).mergeSort Path.isNoLater

theorem visits_append_iff {name : String} :
    Visits tree excludes place (names ++ [name]) entry ↔
      Visits tree excludes place names .directory ∧
        tree.get? (place ++ (names ++ [name])) = some entry ∧
        (entry = .directory → name ∉ excludes) := by
  constructor
  · intro h
    generalize hpath : names ++ [name] = path at h
    cases h with
    | start => simp at hpath
    | inside houter hentry hkept =>
      obtain ⟨rfl, hname⟩ := List.append_inj' hpath rfl
      obtain rfl := List.singleton_inj.1 hname
      exact ⟨houter, hentry, hkept⟩
  · rintro ⟨houter, hentry, hkept⟩
    exact .inside houter hentry hkept

theorem isWay_append_iff {name : String} :
    IsWay tree place (names ++ [name]) ↔
      IsWay tree place names ∧ tree.get? (place ++ names) = some .directory := by
  constructor
  · refine fun hway => ⟨fun outer behind hnames hbehind => ?_, hway names [name] rfl (by simp)⟩
    exact hway outer (behind ++ [name]) (by rw [hnames, List.append_assoc]) (by simp)
  · rintro ⟨hway, hlast⟩ outer behind hnames hbehind
    obtain ⟨front, last, rfl⟩ := (List.eq_nil_or_concat' behind).resolve_left hbehind
    rw [← List.append_assoc] at hnames
    obtain ⟨rfl, -⟩ := List.append_inj' hnames rfl
    cases front with
    | nil => rwa [List.append_nil] at hlast
    | cons head front => exact hway outer (head :: front) rfl (by simp)

/-- A walk comes to what directories lead to of which none has an excluded name. -/
theorem visits_iff :
    Visits tree excludes place names entry ↔
      tree.get? (place ++ names) = some entry ∧ IsWay tree place names ∧
        (∀ name ∈ names.dropLast, name ∉ excludes) ∧
        (entry = .directory → ∀ name ∈ names, name ∉ excludes) := by
  induction names using List.reverseRecOn generalizing entry with
  | nil =>
    rw [List.append_nil]
    constructor
    · intro h
      generalize hpath : [] = path at h
      cases h with
      | start hentry => exact ⟨hentry, isWay_iff.1 rfl, by simp, by simp⟩
      | inside => simp at hpath
    · exact fun h => .start h.1
  | append_singleton names name ih =>
    rw [visits_append_iff, ih, isWay_append_iff, List.dropLast_concat]
    constructor
    · rintro ⟨⟨houter, hway, -, hkept⟩, hentry, hname⟩
      refine ⟨hentry, ⟨hway, houter⟩, hkept rfl, fun hdirectory other hother => ?_⟩
      rcases List.mem_append.1 hother with hother | hother
      · exact hkept rfl other hother
      · rw [List.mem_singleton.1 hother]
        exact hname hdirectory
    · rintro ⟨hentry, ⟨hway, houter⟩, hkept, hname⟩
      exact ⟨⟨houter, hway, fun other hother => hkept other (List.dropLast_subset _ hother),
        fun _ => hkept⟩, hentry, fun hdirectory => hname hdirectory name (by simp)⟩

theorem isSource_iff_visits :
    IsSource tree pattern excludes place names ↔
      (∃ content, Visits tree excludes place names (.file content)) ∧
        fits pattern names = true := by
  simp only [visits_iff, reduceCtorEq, false_implies, and_true]
  constructor
  · rintro ⟨⟨content, hfile⟩, hway, hkept, hfits⟩
    exact ⟨⟨content, hfile, hway, hkept⟩, hfits⟩
  · rintro ⟨⟨content, hfile, hway, hkept⟩, hfits⟩
    exact ⟨⟨content, hfile⟩, hway, hkept, hfits⟩

theorem listed?_eq_some_iff {found : List String × Entry} :
    listed? pattern found = some names ↔
      ∃ content, found = (names, .file content) ∧ fits pattern names = true := by
  obtain ⟨path, entry⟩ := found
  cases entry with
  | directory => simp [listed?]
  | link => simp [listed?]
  | file content =>
    simp only [listed?, Prod.mk.injEq, Entry.file.injEq, Option.ite_none_right_eq_some,
      Option.some.injEq]
    constructor
    · rintro ⟨hfits, rfl⟩
      exact ⟨content, ⟨rfl, rfl⟩, hfits⟩
    · rintro ⟨-, ⟨rfl, -⟩, hfits⟩
      exact ⟨hfits, rfl⟩

variable {visited : List (List String × Entry)}

theorem IsWalk.perm (h : IsWalk tree excludes place visited) (htree : tree.IsNamed) :
    (visited.filterMap (listed? pattern)).Perm (gatherBelow tree pattern excludes place) := by
  have hlisted : (visited.filterMap (listed? pattern)).Nodup := by
    refine List.pairwise_filterMap.2 (h.nodup.imp_of_mem ?_)
    intro first second hfirst hsecond hne names hnames others hothers heq
    subst heq
    obtain ⟨content, rfl, -⟩ := listed?_eq_some_iff.1 hnames
    obtain ⟨other, rfl, -⟩ := listed?_eq_some_iff.1 hothers
    -- what is at a place decides which entry a walk comes to there
    obtain ⟨hentry, -⟩ := visits_iff.1 ((h.mem_iff _ _).1 hfirst)
    obtain ⟨hother, -⟩ := visits_iff.1 ((h.mem_iff _ _).1 hsecond)
    exact hne (by rw [Option.some.inj (hentry.symm.trans hother)])
  have hgathered : (gatherBelow tree pattern excludes place).Nodup :=
    pairwise_gatherBelow.imp fun hlt heq => by simp [heq] at hlt
  refine (List.perm_ext_iff_of_nodup hlisted hgathered).2 fun names => ?_
  rw [mem_gatherBelow htree, isSource_iff_visits, List.mem_filterMap]
  constructor
  · rintro ⟨found, hfound, hnames⟩
    obtain ⟨content, rfl, hfits⟩ := listed?_eq_some_iff.1 hnames
    exact ⟨⟨content, (h.mem_iff _ _).1 hfound⟩, hfits⟩
  · rintro ⟨⟨content, hvisits⟩, hfits⟩
    exact ⟨_, (h.mem_iff _ _).2 hvisits, listed?_eq_some_iff.2 ⟨content, rfl, hfits⟩⟩

/-- There are walks, since trees are finite. -/
theorem exists_isWalk (tree : FileTree) (excludes : List String) (place : Place) :
    ∃ visited, IsWalk tree excludes place visited := by
  classical
  let entries : List (List String × Entry) := ([], .directory) ::
    tree.entries.toList.map fun found => (found.1.drop place.length, found.2)
  have hentries {names entry} (h : tree.get? (place ++ names) = some entry) :
      (names, entry) ∈ entries := by
    rcases FileTree.root_or_getElem?_of_get? h with ⟨hroot, rfl⟩ | hentry
    · rw [(List.append_eq_nil_iff.1 hroot).2]
      exact List.mem_cons_self
    · refine List.mem_cons_of_mem _ (List.mem_map.2 ⟨(place ++ names, entry), ?_, by simp⟩)
      exact Std.ExtTreeMap.mem_toList_iff_getElem?_eq_some.2 hentry
  refine ⟨(entries.filter fun found => Visits tree excludes place found.1 found.2).dedup,
    List.nodup_dedup _, fun names entry => ?_⟩
  rw [List.mem_dedup, List.mem_filter, decide_eq_true_eq]
  exact and_iff_right_of_imp fun h => hentries (visits_iff.1 h).1

theorem compare_pathOf {others : List String} (hstart : start ≠ "") (htree : tree.IsNamed)
    (hdirectory : tree.get? place = some .directory)
    (hnames : IsSource tree pattern excludes place names)
    (hothers : IsSource tree pattern excludes place others) :
    compare (Path.components (pathOf start names)) (Path.components (pathOf start others)) =
      compare names others := by
  unfold pathOf
  rw [Path.components_join hstart (hnames.ne_nil hdirectory) (hnames.isName htree),
    Path.components_join hstart (hothers.ne_nil hdirectory) (hothers.isName htree),
    Path.compare_append_left, Path.compare_map Path.Component.compare_name]

theorem gather_eq {text : String} (hpattern : readPattern start text = .ok pattern)
    (hplace : tree.locate false start = .ok place)
    (hdirectory : tree.get? place = some .directory) :
    gather tree start text excludes =
      .ok ((gatherBelow tree pattern excludes place).map (pathOf start)) := by
  simp only [gather, hpattern, hplace, Except.mapError, bind, Except.bind]
  rw [hdirectory]
  rfl

/-- A path that leads somewhere is not empty. -/
theorem ne_empty_of_locate (hplace : tree.locate false start = .ok place) : start ≠ "" := by
  rintro rfl
  cases hplace

/-- The files that are gathered. They are the files below a directory that fit the
pattern and that no excluded name keeps out, each of them once and in the order of their
paths, whatever the order in which they are come by. The names on the way to the
directory itself are not asked for. -/
theorem gather_eq_files {text : String} (excludes : List String) (htree : tree.IsNamed)
    (hpattern : readPattern start text = .ok pattern)
    (hplace : tree.locate false start = .ok place)
    (hdirectory : tree.get? place = some .directory) :
    ∃ files, gather tree start text excludes = .ok files ∧
      files.Pairwise Path.Precedes ∧ files.Nodup ∧
      (∀ path, path ∈ files ↔
        ∃ names, path = pathOf start names ∧ IsSource tree pattern excludes place names) ∧
      (∃ visited, IsWalk tree excludes place visited) ∧
      ∀ visited, IsWalk tree excludes place visited →
        sortedFiles start pattern visited = files := by
  have hstart : start ≠ "" := ne_empty_of_locate hplace
  have hsource {names} : names ∈ gatherBelow tree pattern excludes place ↔
      IsSource tree pattern excludes place names := mem_gatherBelow htree
  have hordered : ((gatherBelow tree pattern excludes place).map (pathOf start)).Pairwise
      Path.Precedes := by
    refine List.pairwise_map.2 (pairwise_gatherBelow.imp_of_mem fun hfirst hsecond hlt => ?_)
    rwa [Path.Precedes, compare_pathOf hstart htree hdirectory (hsource.1 hfirst)
      (hsource.1 hsecond)]
  refine ⟨_, gather_eq hpattern hplace hdirectory, hordered, ?_, ?_,
    exists_isWalk tree excludes place, fun visited hvisited => ?_⟩
  · exact hordered.imp fun hlt heq => by simp [Path.Precedes, heq] at hlt
  · intro path
    simp only [List.mem_map, hsource]
    constructor
    · rintro ⟨names, hnames, rfl⟩
      exact ⟨names, rfl, hnames⟩
    · rintro ⟨names, rfl, hnames⟩
      exact ⟨names, hnames, rfl⟩
  · have hperm : (sortedFiles start pattern visited).Perm
        ((gatherBelow tree pattern excludes place).map (pathOf start)) :=
      (List.mergeSort_perm _ _).trans ((hvisited.perm htree).map _)
    refine List.Perm.eq_of_pairwise ?_ (Path.pairwise_mergeSort _)
      (hordered.imp Path.Precedes.isNoLater) hperm
    intro first second hfirst hsecond hle hge
    obtain ⟨names, hnames, rfl⟩ := List.mem_map.1 (hperm.mem_iff.1 hfirst)
    obtain ⟨others, hothers, rfl⟩ := List.mem_map.1 hsecond
    have hsame : compare names others = .eq := by
      rw [← compare_pathOf hstart htree hdirectory (hsource.1 hnames) (hsource.1 hothers)]
      exact Path.compare_eq_of_isNoLater hle hge
    rw [Std.LawfulEqOrd.eq_of_compare hsame]

/-- A shop whose sources are in a directory with an excluded name. -/
def shop : FileTree :=
  [(["app"], .directory), (["app", "dist"], .directory), (["app", "dist", "a"], .directory),
    (["app", "dist", "a", "y.ts"], .file (.text "")), (["app", "dist", "a", "dist"], .directory),
    (["app", "dist", "a", "dist", "z.ts"], .file (.text "")),
    (["app", "dist", "a-b"], .directory), (["app", "dist", "a-b", "x.ts"], .file (.text "")),
    (["app", "dist", "link.ts"], .link "main.ts"),
    (["app", "dist", "main.ts"], .file (.text ""))].foldl
    (fun tree found => tree.insert found.1 found.2) .empty

def shopPattern : FilePattern :=
  ⟨[.outerDirectories, .run, .literal '.', .literal 't', .literal 's']⟩

theorem gather_eq_files_shop :
    shop.IsNamed ∧ readPattern "/app/dist" "**/*.ts" = .ok shopPattern ∧
      shop.locate false "/app/dist" = .ok ["app", "dist"] ∧
      ∃ files, gather shop "/app/dist" "**/*.ts" ["dist", "main.ts"] = .ok files ∧
        files.Pairwise Path.Precedes ∧
        ∀ path, path ∈ files ↔ ∃ names, path = pathOf "/app/dist" names ∧
          IsSource shop shopPattern ["dist", "main.ts"] ["app", "dist"] names := by
  have hnamed : shop.IsNamed := by
    unfold shop
    simp only [List.foldl_cons, List.foldl_nil]
    iterate 10 refine FileTree.IsNamed.insert ?_ (by simp) (by decide)
    exact FileTree.isNamed_empty
  have hpattern : readPattern "/app/dist" "**/*.ts" = .ok shopPattern := rfl
  have hplace : shop.locate false "/app/dist" = .ok ["app", "dist"] := by decide +kernel
  have hdirectory : shop.get? ["app", "dist"] = some .directory := by decide +kernel
  obtain ⟨files, hfiles, hordered, -, hmem, -, -⟩ :=
    gather_eq_files ["dist", "main.ts"] hnamed hpattern hplace hdirectory
  exact ⟨hnamed, hpattern, hplace, files, hfiles, hordered, hmem⟩

example : gather shop "/app/dist" "**/*.ts" ["dist", "main.ts"] =
    .ok ["/app/dist/a/y.ts", "/app/dist/a-b/x.ts", "/app/dist/main.ts"] := by
  decide +kernel

end Source

end EnumInline
