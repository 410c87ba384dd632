import EnumInline.Proofs.FileTree.Writing
import EnumInline.Proofs.KeyedList
import EnumInline.Proofs.Outcome
import EnumInline.Proofs.Resolution.Aliases
import EnumInline.Proofs.TsConfig.Inheritance
import Mathlib.Data.List.Induction
import Mathlib.Data.List.Perm.Subperm

/-!
Loading the settings for a file finds what is in force. The files that wait for others
are different files of the tree, so that their number bounds the depth of the loading,
and a path that leads back to one of them is the only thing besides an unreadable or
malformed file that stops it.
-/

namespace EnumInline.TsConfig

variable {tree : FileTree} {fuel : Nat} {loading : List Place} {path base : String}

theorem readFile_ok_iff {config : TsConfig} :
    readFile tree path = .ok config ↔ Holds tree path config := by
  unfold readFile Holds
  constructor
  · intro h
    obtain ⟨text, hread, h⟩ := ok_of_bind h
    split at h
    next found hfound =>
      cases h
      exact ⟨text, ok_of_mapError hread, hfound⟩
    next => cases h
  · rintro ⟨text, hread, hconfig⟩
    rw [hread]
    simp only [Except.mapError, bind, Except.bind, hconfig]

theorem isAbsolute_iff {name : String} :
    Path.isAbsolute name = true ↔ "/".toList <+: name.toList := by
  unfold Path.isAbsolute
  rw [beq_iff_eq, List.head?_eq_some_iff]
  constructor
  · rintro ⟨rest, hname⟩
    exact ⟨rest, hname.symm⟩
  · rintro ⟨rest, hname⟩
    exact ⟨rest, hname.symm⟩

theorem basePath?_eq (path name : String) :
    basePath? path name =
      if IsFileName name then some (Path.join (Path.directory path) (withExtension name))
      else none := by
  have hfile : (("./".toList.isPrefixOf name.toList || "../".toList.isPrefixOf name.toList) ||
      Path.isAbsolute name) = true ↔ IsFileName name := by
    rw [Bool.or_eq_true, Bool.or_eq_true, List.isPrefixOf_iff_prefix, List.isPrefixOf_iff_prefix,
      isAbsolute_iff, or_assoc, IsFileName]
  have hextension : (if ".json".toList.isSuffixOf name.toList then name else name ++ ".json") =
      withExtension name := by
    simp only [withExtension, List.isSuffixOf_iff_suffix]
  simp only [basePath?, hfile, hextension]

theorem filterMap_basePath? (path : String) (config : TsConfig) :
    config.bases.filterMap (basePath? path) = named path config := by
  unfold named
  induction config.bases with
  | nil => rfl
  | cons name rest ih =>
    rw [List.filterMap_cons, basePath?_eq, List.filter_cons]
    by_cases hfile : IsFileName name
    · simp [hfile, ih]
    · simp [hfile, ih]

/-- The settings that files hand down, of which a later one overrides an earlier one. -/
def inherit (load : String → Except Failure Effective) (bases : List String) :
    Except Failure Effective :=
  bases.foldlM (fun inherited base => do .ok ((← load base).completedBy inherited))
    Effective.empty

theorem inherit_append {load : String → Except Failure Effective} {bases : List String} :
    inherit load (bases ++ [base]) = (do
      let inherited ← inherit load bases
      .ok ((← load base).completedBy inherited)) := by
  simp [inherit]

theorem effective_succ : effective tree (fuel + 1) loading path = (do
    let place ← (tree.locate false path).mapError (Failure.io path)
    if place ∈ loading then .error (.config path .extendsCycle)
    else do
      let config ← readFile tree path
      let inherited ← inherit (effective tree fuel (place :: loading)) (named path config)
      .ok ((config.own (home path)).completedBy inherited)) := by
  simp only [effective, filterMap_basePath?]
  rfl

/-- A file is loaded if it can be read, does not wait for itself and everything that it
takes over is loaded. -/
theorem effective_ok_iff {settings : Effective} :
    effective tree (fuel + 1) loading path = .ok settings ↔
      ∃ place config inherited, tree.locate false path = .ok place ∧ place ∉ loading ∧
        Holds tree path config ∧
        inherit (effective tree fuel (place :: loading)) (named path config) = .ok inherited ∧
        settings = (config.own (home path)).completedBy inherited := by
  rw [effective_succ]
  constructor
  · intro h
    obtain ⟨place, hplace, h⟩ := ok_of_bind h
    split at h
    next => cases h
    next hfresh =>
      obtain ⟨config, hconfig, h⟩ := ok_of_bind h
      obtain ⟨inherited, hinherited, h⟩ := ok_of_bind h
      exact ⟨place, config, inherited, ok_of_mapError hplace, hfresh, readFile_ok_iff.1 hconfig,
        hinherited, (Except.ok.inj h).symm⟩
  · rintro ⟨place, config, inherited, hplace, hfresh, hholds, hinherited, rfl⟩
    rw [hplace]
    change (if place ∈ loading then _ else _) = _
    rw [if_neg hfresh, readFile_ok_iff.2 hholds]
    change (inherit _ _ >>= _) = _
    rw [hinherited]
    rfl

theorem inherit_ok {load : String → Except Failure Effective} (bases : List String)
    (h : ∀ base ∈ bases, ∃ settings, load base = .ok settings) :
    ∃ inherited, inherit load bases = .ok inherited := by
  induction bases using List.reverseRecOn with
  | nil => exact ⟨_, rfl⟩
  | append_singleton bases base ih =>
    obtain ⟨inherited, hinherited⟩ := ih fun other hother => h other (by simp [hother])
    obtain ⟨settings, hsettings⟩ := h base (by simp)
    refine ⟨settings.completedBy inherited, ?_⟩
    rw [inherit_append, hinherited, hsettings]
    rfl

theorem ok_of_inherit {load : String → Except Failure Effective} {bases : List String}
    {inherited : Effective} (h : inherit load bases = .ok inherited) :
    ∀ base ∈ bases, ∃ settings, load base = .ok settings := by
  induction bases using List.reverseRecOn generalizing inherited with
  | nil => simp
  | append_singleton bases base ih =>
    rw [inherit_append] at h
    obtain ⟨earlier, hearlier, h⟩ := ok_of_bind h
    obtain ⟨settings, hsettings, -⟩ := ok_of_bind h
    intro other hother
    rcases List.mem_append.1 hother with hother | hother
    · exact ih hearlier other hother
    · obtain rfl := List.mem_singleton.1 hother
      exact ⟨settings, hsettings⟩

/-- One of the settings in force, which files state as `stated` says. -/
structure IsField {α : Type} (field : Effective → Option α)
    (stated : String → TsConfig → Option α) : Prop where
  empty : field .empty = none
  completedBy (settings others : Effective) :
    field (settings.completedBy others) = (field settings).or (field others)
  own (path : String) (config : TsConfig) : field (config.own (home path)) = stated path config

theorem isField_baseUrl : IsField Effective.baseUrl statedBaseUrl where
  empty := rfl
  completedBy _ _ := rfl
  own path config := by
    rw [TsConfig.own, resolve_eq_pathFrom, statedBaseUrl]

theorem isField_paths : IsField Effective.paths statedPaths :=
  ⟨rfl, fun _ _ => rfl, fun _ _ => rfl⟩

section Field

variable {α : Type} {field : Effective → Option α} {stated : String → TsConfig → Option α}
  (hfield : IsField field stated)

include hfield

/-- What is inherited is what the last file hands down that hands down anything. -/
theorem IsField.inherit {load : String → Except Failure Effective} {bases : List String}
    {inherited : Effective} (h : inherit load bases = .ok inherited) :
    (field inherited = none ∧
      ∀ base ∈ bases, ∃ settings, load base = .ok settings ∧ field settings = none) ∨
    ∃ earlier base later settings, bases = earlier ++ base :: later ∧
      load base = .ok settings ∧ field settings = field inherited ∧
      (field inherited).isSome ∧
      ∀ other ∈ later, ∃ settings, load other = .ok settings ∧ field settings = none := by
  induction bases using List.reverseRecOn generalizing inherited with
  | nil =>
    obtain rfl : Effective.empty = inherited := Except.ok.inj h
    exact Or.inl ⟨hfield.empty, by simp⟩
  | append_singleton bases base ih =>
    rw [inherit_append] at h
    obtain ⟨before, hbefore, h⟩ := ok_of_bind h
    obtain ⟨settings, hsettings, h⟩ := ok_of_bind h
    obtain rfl : settings.completedBy before = inherited := Except.ok.inj h
    rw [hfield.completedBy]
    cases hvalue : field settings with
    | some value =>
      refine Or.inr ⟨bases, base, [], settings, rfl, hsettings, ?_, ?_, by simp⟩
      · rw [hvalue, Option.some_or]
      · rw [Option.some_or, Option.isSome_some]
    | none =>
      rw [Option.none_or]
      rcases ih hbefore with ⟨hnone, hall⟩ | ⟨earlier, other, later, found, rfl, hload, hsame, hset,
        hlater⟩
      · refine Or.inl ⟨hnone, fun other hother => ?_⟩
        rcases List.mem_append.1 hother with hother | hother
        · exact hall other hother
        · obtain rfl := List.mem_singleton.1 hother
          exact ⟨settings, hsettings, hvalue⟩
      · refine Or.inr ⟨earlier, other, later ++ [base], found, by simp, hload, hsame, hset, ?_⟩
        intro last hlast
        rcases List.mem_append.1 hlast with hlast | hlast
        · exact hlater last hlast
        · obtain rfl := List.mem_singleton.1 hlast
          exact ⟨settings, hsettings, hvalue⟩

theorem IsField.inForce {settings : Effective}
    (h : effective tree fuel loading path = .ok settings) :
    InForce tree stated path (field settings) := by
  induction fuel generalizing loading path settings with
  | zero => cases h
  | succ fuel ih =>
    obtain ⟨place, config, inherited, -, -, hholds, hinherited, rfl⟩ := effective_ok_iff.1 h
    rw [hfield.completedBy, hfield.own]
    cases hstated : stated path config with
    | some value =>
      rw [Option.some_or]
      exact .own hholds hstated
    | none =>
      rw [Option.none_or]
      rcases hfield.inherit hinherited with ⟨hnone, hall⟩ | ⟨earlier, base, later, found, hnamed,
        hload, hsame, hset, hlater⟩
      · rw [hnone]
        refine .nowhere hholds hstated fun base hbase => ?_
        obtain ⟨found, hload, hvalue⟩ := hall base hbase
        rw [← hvalue]
        exact ih hload
      · obtain ⟨value, hvalue⟩ := Option.isSome_iff_exists.1 hset
        rw [hvalue] at hsame ⊢
        refine .last hholds hstated hnamed ?_ fun other hother => ?_
        · rw [← hsame]
          exact ih hload
        · obtain ⟨found, hload, hvalue⟩ := hlater other hother
          rw [← hvalue]
          exact ih hload

end Field

/-- While the files at the places `loading` wait, the file at `path` is loaded. -/
def Loads (tree : FileTree) (loading : List Place) (path : String) : Prop :=
  ∃ fuel settings, effective tree fuel loading path = .ok settings

/-- With a file, the files that it names are loaded, while it waits. -/
theorem Loads.step (h : Loads tree loading path) :
    ∃ place config, tree.locate false path = .ok place ∧ place ∉ loading ∧
      Holds tree path config ∧ ∀ base ∈ named path config, Loads tree (place :: loading) base := by
  obtain ⟨fuel, settings, h⟩ := h
  cases fuel with
  | zero => cases h
  | succ fuel =>
    obtain ⟨place, config, inherited, hplace, hfresh, hholds, hinherited, -⟩ :=
      effective_ok_iff.1 h
    refine ⟨place, config, hplace, hfresh, hholds, fun base hbase => ?_⟩
    obtain ⟨found, hfound⟩ := ok_of_inherit hinherited base hbase
    exact ⟨fuel, found, hfound⟩

theorem Loads.names (h : Loads tree loading path) (hnames : Names tree path base) :
    ∃ place, tree.locate false path = .ok place ∧ Loads tree (place :: loading) base := by
  obtain ⟨place, config, hplace, -, hholds, hbases⟩ := h.step
  obtain ⟨config', hholds', hmem⟩ := hnames
  obtain rfl := hholds.unique hholds'
  exact ⟨place, hplace, hbases base hmem⟩

/-- Every file that is reached is loaded, while the files wait that waited before. -/
theorem Loads.reached {file : String} (h : Loads tree loading path)
    (hreached : Relation.ReflTransGen (Names tree) path file) :
    ∃ loading', loading ⊆ loading' ∧ Loads tree loading' file := by
  induction hreached with
  | refl => exact ⟨loading, fun _ h => h, h⟩
  | tail _ hnames ih =>
    obtain ⟨loading', hsubset, hloads⟩ := ih
    obtain ⟨place, -, hloads⟩ := hloads.names hnames
    exact ⟨place :: loading', fun other hother => by simp [hsubset hother], hloads⟩

theorem Loads.isLoadable (h : Loads tree loading path) : IsLoadable tree path where
  readable file hreached := by
    obtain ⟨loading', -, hloads⟩ := h.reached hreached
    obtain ⟨place, config, -, -, hholds, -⟩ := hloads.step
    exact ⟨config, hholds⟩
  returnless file again hreached hagain := by
    obtain ⟨loading', -, hloads⟩ := h.reached hreached
    obtain ⟨base, hnames, hrest⟩ := Relation.TransGen.head'_iff.1 hagain
    obtain ⟨place, hplace, hloads⟩ := hloads.names hnames
    obtain ⟨loading'', hsubset, hloads⟩ := hloads.reached hrest
    obtain ⟨other, -, hother, hfresh, -⟩ := hloads.step
    rw [hplace, hother]
    intro hsame
    obtain rfl : other = place := Except.ok.inj hsame
    exact hfresh (hsubset (by simp))

theorem mem_entries_of_holds {config : TsConfig} {place : Place} (h : Holds tree path config)
    (hplace : tree.locate false path = .ok place) : place ∈ tree.entries := by
  obtain ⟨text, hread, -⟩ := h
  have hentry := FileTree.getElem?_of_get? (FileTree.get?_of_read hplace hread) (by simp)
  exact KeyedList.mem_iff_exists.2 ⟨_, hentry⟩

/-- The files that wait are different files of the tree. -/
structure AreWaiting (tree : FileTree) (loading : List Place) : Prop where
  nodup : loading.Nodup
  mem_entries : ∀ place ∈ loading, place ∈ tree.entries

theorem AreWaiting.nil (tree : FileTree) : AreWaiting tree [] := ⟨.nil, by simp⟩

theorem AreWaiting.cons {config : TsConfig} {place : Place} (h : AreWaiting tree loading)
    (hholds : Holds tree path config) (hplace : tree.locate false path = .ok place)
    (hfresh : place ∉ loading) : AreWaiting tree (place :: loading) where
  nodup := List.nodup_cons.2 ⟨hfresh, h.nodup⟩
  mem_entries := List.forall_mem_cons.2 ⟨mem_entries_of_holds hholds hplace, h.mem_entries⟩

theorem AreWaiting.length_le (h : AreWaiting tree loading) :
    loading.length ≤ tree.entries.size := by
  have hsubset : loading ⊆ tree.entries.keys := fun place hplace =>
    Std.ExtTreeMap.mem_keys.2 (h.mem_entries place hplace)
  have hlength := (List.subperm_of_subset h.nodup hsubset).length_le
  rwa [Std.ExtTreeMap.length_keys] at hlength

/-- A larger bound changes nothing, even where the loading fails. -/
theorem effective_stable (h : AreWaiting tree loading)
    (hfuel : tree.entries.size < fuel + loading.length) :
    effective tree (fuel + 1) loading path = effective tree fuel loading path := by
  induction fuel generalizing loading path with
  | zero =>
    have hlength := h.length_le
    omega
  | succ fuel ih =>
    rw [effective_succ, effective_succ]
    cases hplace : tree.locate false path with
    | error cause => rfl
    | ok place =>
      change (if place ∈ loading then _ else _) = if place ∈ loading then _ else _
      split
      next => rfl
      next hfresh =>
        cases hconfig : readFile tree path with
        | error failure => rfl
        | ok config =>
          have hwaiting := h.cons (readFile_ok_iff.1 hconfig) hplace hfresh
          have hload : effective tree (fuel + 1) (place :: loading) =
              effective tree fuel (place :: loading) := by
            funext base
            refine ih hwaiting ?_
            rw [List.length_cons]
            omega
          rw [hload]

/-- The files that wait for the file at `path` have led to it from the file at `start`. -/
def LedTo (tree : FileTree) (start : String) (loading : List Place) (path : String) : Prop :=
  ∀ place ∈ loading, ∃ file, Relation.ReflTransGen (Names tree) start file ∧
    tree.locate false file = .ok place ∧ Relation.TransGen (Names tree) file path

/-- What can be loaded is loaded within the bound. -/
theorem IsLoadable.effective_ok {start : String} (h : IsLoadable tree start)
    (hreached : Relation.ReflTransGen (Names tree) start path)
    (hwaiting : AreWaiting tree loading) (hled : LedTo tree start loading path)
    (hfuel : tree.entries.size < fuel + loading.length) :
    ∃ settings, effective tree fuel loading path = .ok settings := by
  induction fuel generalizing loading path with
  | zero =>
    have hlength := hwaiting.length_le
    omega
  | succ fuel ih =>
    obtain ⟨config, hholds⟩ := h.readable path hreached
    obtain ⟨text, hread, -⟩ := id hholds
    obtain ⟨place, hplace, -⟩ := FileTree.read_ok_iff.1 hread
    have hfresh : place ∉ loading := by
      intro hmem
      obtain ⟨file, hfile, hlocate, hpath⟩ := hled place hmem
      exact h.returnless file path hfile hpath (hplace.trans hlocate.symm)
    have hbases : ∀ base ∈ named path config,
        ∃ settings, effective tree fuel (place :: loading) base = .ok settings := by
      intro base hbase
      have hnames : Names tree path base := ⟨config, hholds, hbase⟩
      refine ih (hreached.tail hnames) (hwaiting.cons hholds hplace hfresh) ?_ ?_
      · intro other hother
        rcases List.mem_cons.1 hother with rfl | hother
        · exact ⟨path, hreached, hplace, .single hnames⟩
        · obtain ⟨file, hfile, hlocate, hpath⟩ := hled other hother
          exact ⟨file, hfile, hlocate, hpath.tail hnames⟩
      · rw [List.length_cons]
        omega
    obtain ⟨inherited, hinherited⟩ := inherit_ok _ hbases
    exact ⟨_, effective_ok_iff.2 ⟨place, config, inherited, hplace, hfresh, hholds, hinherited,
      rfl⟩⟩

/-- No pattern has more than one star. -/
def Effective.HaveSingleStars (settings : Effective) : Prop :=
  ∀ targets directory, settings.paths = some (targets, directory) →
    ∀ pattern ∈ targets, pattern.toList.count '*' ≤ 1

/-- The mapping of one pattern, which is read without the white space around it, with its
targets taken from the directory `base`. There is none without targets. -/
def mappingFrom? (base : String) (entry : String × List String) : Option PathMapping :=
  if entry.2.isEmpty then none
  else some ⟨slashed (Text.onChars Text.trim entry.1), entry.2.map (pathFrom base)⟩

/-- The mappings that settings define, none before one that outranks it. Targets are taken
from the base directory if there is one, and otherwise from that of the file that sets
them. -/
def Effective.mappings (settings : Effective) : List PathMapping :=
  match settings.paths with
  | none => []
  | some (targets, directory) =>
      (targets.toList.filterMap (mappingFrom? (settings.baseUrl.getD directory))).mergeSort
        fun first second => decide (¬ second.Outranks first)

theorem sort_eq_mergeSort (mappings : List PathMapping) :
    PathMapping.sort mappings =
      mappings.mergeSort fun first second => decide (¬ second.Outranks first) := by
  have hprecedes : PathMapping.precedes = fun first second : PathMapping =>
      decide (¬ second.Outranks first) := by
    funext first second
    exact PathMapping.precedes_eq_decide
  rw [PathMapping.sort, hprecedes]

theorem mapM_mapping? {entries : List (String × List String)}
    (h : ∀ entry ∈ entries, entry.1.toList.count '*' ≤ 1) :
    entries.mapM (mapping? path base) = .ok (entries.map (mappingFrom? base)) := by
  induction entries with
  | nil => rfl
  | cons entry rest ih =>
    obtain ⟨hentry, hrest⟩ := List.forall_mem_cons.1 h
    have hmapping : mapping? path base entry = .ok (mappingFrom? base entry) := by
      rw [mapping?, if_neg (by omega), mappingFrom?, PathMapping.ofPattern, resolve_eq_pathFrom]
      split
      next => rfl
      next => simp [slashed, Text.onChars, Path.withSlashes]
    rw [List.mapM_cons, hmapping, ih hrest]
    rfl

theorem singleStars_of_mapM {entries : List (String × List String)}
    {mappings : List (Option PathMapping)}
    (h : entries.mapM (mapping? path base) = .ok mappings) :
    ∀ entry ∈ entries, entry.1.toList.count '*' ≤ 1 := by
  intro entry hentry
  obtain ⟨mapping, -, hmapping⟩ := (mapM_ok h).1 entry hentry
  unfold mapping? at hmapping
  split at hmapping
  next => cases hmapping
  next hstars => omega

theorem Effective.aliases_ok_iff {settings : Effective} {aliases : Aliases} :
    settings.aliases path = .ok aliases ↔
      settings.HaveSingleStars ∧ aliases = ⟨settings.mappings, settings.baseUrl⟩ := by
  unfold Effective.aliases HaveSingleStars mappings
  cases hpaths : settings.paths with
  | none => simp [eq_comm]
  | some paths =>
    obtain ⟨targets, directory⟩ := paths
    have hkeys : (∀ pattern ∈ targets, pattern.toList.count '*' ≤ 1) ↔
        ∀ entry ∈ targets.toList, entry.1.toList.count '*' ≤ 1 := by
      constructor
      · rintro h ⟨pattern, names⟩ hentry
        refine h pattern (KeyedList.mem_iff_exists.2 ⟨names, ?_⟩)
        exact Std.ExtTreeMap.mem_toList_iff_getElem?_eq_some.1 hentry
      · intro h pattern hpattern
        obtain ⟨names, hnames⟩ := KeyedList.mem_iff_exists.1 hpattern
        exact h (pattern, names) (Std.ExtTreeMap.mem_toList_iff_getElem?_eq_some.2 hnames)
    constructor
    · intro h
      obtain ⟨found, hfound, h⟩ := ok_of_bind h
      have hstars := singleStars_of_mapM hfound
      rw [mapM_mapping? hstars] at hfound
      obtain rfl := Except.ok.inj hfound
      obtain rfl := Except.ok.inj h
      refine ⟨?_, ?_⟩
      · rintro _ _ ⟨rfl, rfl⟩
        exact hkeys.2 hstars
      · simp [List.filterMap_map, sort_eq_mergeSort]
    · rintro ⟨hstars, rfl⟩
      change (targets.toList.mapM _ >>= _) = _
      rw [mapM_mapping? (hkeys.1 (hstars targets directory rfl))]
      simp [bind, Except.bind, List.filterMap_map, sort_eq_mergeSort]

/-- The settings in force for the file at a path. -/
def loadSettings (tree : FileTree) (path : String) : Except Failure Effective :=
  effective tree (tree.entries.size + 1) [] path

theorem effective_eq_loadSettings (hfuel : tree.entries.size < fuel) :
    effective tree fuel [] path = loadSettings tree path := by
  induction hfuel with
  | refl => rfl
  | step hlt ih => exact (effective_stable (.nil tree) hlt).trans ih

theorem loadSettings_ok_iff :
    (∃ settings, loadSettings tree path = .ok settings) ↔ IsLoadable tree path := by
  constructor
  · rintro ⟨settings, h⟩
    exact Loads.isLoadable ⟨_, settings, h⟩
  · intro h
    exact h.effective_ok .refl (.nil tree) (by simp [LedTo]) (by simp)

/-- Settings are inherited along the files that a file names. The number of files
bounds how deep they are loaded, and a larger bound changes nothing. The loading
succeeds if and only if all files that are reached can be read, are well-formed and are
not reached again while they wait. It finds what is in force, of the base directory and
of the targets each on its own; and the aliases are those targets, taken from the base
directory in force or else from the directory of the file that sets them, unless a
pattern has several stars. -/
theorem load_exact (tree : FileTree) (path : String) :
    (∀ fuel, tree.entries.size < fuel →
      effective tree fuel [] path = loadSettings tree path) ∧
    ((∃ settings, loadSettings tree path = .ok settings) ↔ IsLoadable tree path) ∧
    (∀ failure, loadSettings tree path = .error failure → load tree path = .error failure) ∧
    ∀ settings, loadSettings tree path = .ok settings →
      (∀ value, InForce tree statedBaseUrl path value ↔ value = settings.baseUrl) ∧
      (∀ value, InForce tree statedPaths path value ↔ value = settings.paths) ∧
      ∀ aliases, load tree path = .ok aliases ↔
        settings.HaveSingleStars ∧ aliases = ⟨settings.mappings, settings.baseUrl⟩ := by
  have hload : load tree path = loadSettings tree path >>= fun found => found.aliases path := rfl
  refine ⟨fun fuel hfuel => effective_eq_loadSettings hfuel, loadSettings_ok_iff, ?_, ?_⟩
  · intro failure hfailure
    rw [hload, hfailure]
    rfl
  · intro settings hsettings
    have hbaseUrl := isField_baseUrl.inForce hsettings
    have hpaths := isField_paths.inForce hsettings
    refine ⟨fun value => ⟨fun h => h.unique hbaseUrl, ?_⟩,
      fun value => ⟨fun h => h.unique hpaths, ?_⟩, fun aliases => ?_⟩
    · rintro rfl
      exact hbaseUrl
    · rintro rfl
      exact hpaths
    · rw [hload, hsettings]
      exact Effective.aliases_ok_iff

/-- Settings in several directories. Those of `/p/app` take a base directory over from one
file and targets from another one, those of `/p/web` take over targets alone, and one file
names itself. -/
def nested : FileTree :=
  let settings (text : String) : Entry := .file (.text text)
  let options (text : String) : Entry := settings ("\x7bcompilerOptions: \x7b" ++ text ++ "\x7d\x7d")
  ⟨.ofList [(["p"], Entry.directory), (["p", "app"], Entry.directory),
      (["p", "base"], Entry.directory), (["p", "web"], Entry.directory),
      (["p", "app", "tsconfig.json"],
        settings "\x7bextends: ['../base/first', 'package', '../base/second.json']\x7d"),
      (["p", "base", "first.json"],
        options "baseUrl: './src', paths: \x7b'@/*': ['./gen/*']\x7d"),
      (["p", "base", "second.json"],
        options "paths: \x7b'~': ['..\\\\size'], '~/* ': ['./lib/*', '/q/*']\x7d"),
      (["p", "web", "tsconfig.json"], settings "\x7bextends: '../base/second'\x7d"),
      (["p", "loop.json"], settings "\x7bextends: './loop'\x7d")],
    ["p"]⟩

/-- The settings that are loaded for a file, with targets as a list. -/
def loadEntries (tree : FileTree) (path : String) :
    Option (Option String × Option (List (String × List String) × String)) :=
  (loadSettings tree path).toOption.map fun settings =>
    (settings.baseUrl, settings.paths.map fun paths => (paths.1.toList, paths.2))

theorem exists_settings_of_loadEntries {baseUrl : Option String}
    {entries : List (String × List String)} {directory : String}
    (h : loadEntries tree path = some (baseUrl, some (entries, directory)))
    (hstars : ∀ entry ∈ entries, entry.1.toList.count '*' ≤ 1) :
    ∃ settings, loadSettings tree path = .ok settings ∧ settings.baseUrl = baseUrl ∧
      settings.HaveSingleStars ∧
      settings.mappings =
        (entries.filterMap (mappingFrom? (baseUrl.getD directory))).mergeSort
          fun first second => decide (¬ second.Outranks first) := by
  cases hsettings : loadSettings tree path with
  | error failure => simp [loadEntries, hsettings, Except.toOption] at h
  | ok settings =>
    simp only [loadEntries, hsettings, Except.toOption, Option.map_some, Option.some.injEq,
      Prod.mk.injEq, Option.map_eq_some_iff] at h
    obtain ⟨rfl, ⟨targets, place⟩, hpaths, rfl, rfl⟩ := h
    refine ⟨settings, rfl, rfl, ?_, ?_⟩
    · rintro _ _ hsame pattern hpattern
      cases hpaths.symm.trans hsame
      obtain ⟨names, hnames⟩ := KeyedList.mem_iff_exists.1 hpattern
      exact hstars (pattern, names) (Std.ExtTreeMap.mem_toList_iff_getElem?_eq_some.2 hnames)
    · simp only [Effective.mappings, hpaths]

theorem load_exact_nested :
    load nested "/p/app/tsconfig.json" =
      .ok ⟨[⟨"~", ["/p/base/size"]⟩, ⟨"~/*", ["/p/base/src/lib/*", "/q/*"]⟩], some "/p/base/src"⟩ ∧
    load nested "/p/web/tsconfig.json" =
      .ok ⟨[⟨"~", ["/p/size"]⟩, ⟨"~/*", ["/p/base/lib/*", "/q/*"]⟩], none⟩ ∧
    InForce nested statedBaseUrl "/p/app/tsconfig.json" (some "/p/base/src") ∧
    ¬ IsLoadable nested "/p/loop.json" := by
  have happ : loadEntries nested "/p/app/tsconfig.json" = some (some "/p/base/src",
      some ([("~", ["..\\size"]), ("~/* ", ["./lib/*", "/q/*"])], "/p/base")) := by
    decide +kernel
  have hweb : loadEntries nested "/p/web/tsconfig.json" = some (none,
      some ([("~", ["..\\size"]), ("~/* ", ["./lib/*", "/q/*"])], "/p/base")) := by
    decide +kernel
  have hloop : loadEntries nested "/p/loop.json" = none := by decide +kernel
  obtain ⟨app, hloadApp, hbase, hstarsApp, hmappingsApp⟩ :=
    exists_settings_of_loadEntries happ (by decide)
  obtain ⟨web, hloadWeb, hnone, hstarsWeb, hmappingsWeb⟩ :=
    exists_settings_of_loadEntries hweb (by decide)
  obtain ⟨-, -, -, hfoundApp⟩ := load_exact nested "/p/app/tsconfig.json"
  obtain ⟨-, -, -, hfoundWeb⟩ := load_exact nested "/p/web/tsconfig.json"
  refine ⟨?_, ?_, ?_, ?_⟩
  · refine ((hfoundApp app hloadApp).2.2 _).2 ⟨hstarsApp, ?_⟩
    rw [hmappingsApp, hbase, List.mergeSort_of_pairwise (by decide +kernel)]
    decide +kernel
  · refine ((hfoundWeb web hloadWeb).2.2 _).2 ⟨hstarsWeb, ?_⟩
    rw [hmappingsWeb, hnone, List.mergeSort_of_pairwise (by decide +kernel)]
    decide +kernel
  · rw [← hbase]
    exact ((hfoundApp app hloadApp).1 _).2 rfl
  · intro hloadable
    obtain ⟨settings, hsettings⟩ := (load_exact nested "/p/loop.json").2.1.2 hloadable
    simp [loadEntries, hsettings, Except.toOption] at hloop

end EnumInline.TsConfig
