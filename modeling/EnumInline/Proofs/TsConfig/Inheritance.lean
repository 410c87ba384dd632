import EnumInline.TsConfig.Load
import Mathlib.Logic.Relation

/-!
Which settings are in force for a file, said without loading any. What the file sets
itself counts; otherwise what is in force for the last of the files it names for which
anything is. A file may be named along several ways, but following names must not lead
back to a file that is passed on the way.

Directories are those of the paths by which files are reached, in their normal
spelling.
-/

namespace EnumInline.TsConfig

/-- The file at a path can be read, and it holds these settings. -/
def Holds (tree : FileTree) (path : String) (config : TsConfig) : Prop :=
  ∃ text, tree.read path = .ok text ∧ read? text = some config

/-- The names of files are relative or absolute. All others are those of packages. -/
def IsFileName (name : String) : Prop :=
  "./".toList <+: name.toList ∨ "../".toList <+: name.toList ∨ "/".toList <+: name.toList

instance : DecidablePred IsFileName := fun _ => inferInstanceAs (Decidable (_ ∨ _ ∨ _))

/-- The name of a file, with its extension if that is left out. -/
def withExtension (name : String) : String :=
  if ".json".toList <:+ name.toList then name else name ++ ".json"

/-- The files that the file at `path` names, in the order in which it does. -/
def named (path : String) (config : TsConfig) : List String :=
  (config.bases.filter fun name => IsFileName name).map fun name =>
    Path.join (Path.directory path) (withExtension name)

/-- The file at `path` names the file at `base`. -/
def Names (tree : FileTree) (path base : String) : Prop :=
  ∃ config, Holds tree path config ∧ base ∈ named path config

/-- Every file that is reached by following names can be read and is well-formed, and
following names never leads from one of these files to a path of the same file. -/
structure IsLoadable (tree : FileTree) (path : String) : Prop where
  readable (file : String) : Relation.ReflTransGen (Names tree) path file →
    ∃ config, Holds tree file config
  returnless (file again : String) : Relation.ReflTransGen (Names tree) path file →
    Relation.TransGen (Names tree) file again →
    tree.locate false again ≠ tree.locate false file

/-- The directory that the settings in a file are relative to. -/
def home (path : String) : String := Path.normalize (Path.directory path)

/-- A text with backslashes read as slashes. -/
def slashed (text : String) : String :=
  String.ofList (text.toList.map fun c => if c = '\\' then '/' else c)

/-- The path that a file in `directory` means by `name`, in its normal spelling. -/
def pathFrom (directory name : String) : String :=
  if "/".toList <+: (slashed name).toList then Path.normalize (slashed name)
  else Path.normalize (directory ++ "/" ++ slashed name)

theorem resolve_eq_pathFrom : Path.resolve = pathFrom := by
  funext directory name
  have hslashed : Text.onChars Path.withSlashes name = slashed name := rfl
  have habsolute : ((slashed name).toList.head? == some '/') = true ↔
      "/".toList <+: (slashed name).toList := by
    rw [beq_iff_eq, List.head?_eq_some_iff]
    exact ⟨fun ⟨rest, h⟩ => ⟨rest, h.symm⟩, fun ⟨rest, h⟩ => ⟨rest, h.symm⟩⟩
  simp only [Path.resolve, pathFrom, hslashed, habsolute, apply_ite Path.normalize]
  rfl

/-- The base directory that a file sets. -/
def statedBaseUrl (path : String) (config : TsConfig) : Option String :=
  config.baseUrl.map (pathFrom (home path))

/-- The targets that a file sets, with the directory that they are relative to unless
there is a base directory. -/
def statedPaths (path : String) (config : TsConfig) : Option (AliasTargets × String) :=
  config.paths.map fun targets => (targets, home path)

section InForce

variable {α : Type} {tree : FileTree} {stated : String → TsConfig → Option α}

/-- What is in force for a file, of a setting that files state as `stated` says. -/
inductive InForce (tree : FileTree) (stated : String → TsConfig → Option α) :
    String → Option α → Prop where
  | own {path : String} {config : TsConfig} {value : α} (hholds : Holds tree path config)
      (hstated : stated path config = some value) : InForce tree stated path (some value)
  /-- The last of the named files for which anything is in force decides. -/
  | last {path base : String} {config : TsConfig} {earlier later : List String} {value : α}
      (hholds : Holds tree path config) (hstated : stated path config = none)
      (hnamed : named path config = earlier ++ base :: later)
      (hbase : InForce tree stated base (some value))
      (hlater : ∀ other ∈ later, InForce tree stated other none) :
      InForce tree stated path (some value)
  | nowhere {path : String} {config : TsConfig} (hholds : Holds tree path config)
      (hstated : stated path config = none)
      (hnamed : ∀ base ∈ named path config, InForce tree stated base none) :
      InForce tree stated path none

theorem Holds.unique {path : String} {config other : TsConfig} (h : Holds tree path config)
    (hother : Holds tree path other) : config = other := by
  obtain ⟨text, hread, hconfig⟩ := h
  obtain ⟨text', hread', hconfig'⟩ := hother
  obtain rfl : text = text' := Except.ok.inj (hread.symm.trans hread')
  exact Option.some.inj (hconfig.symm.trans hconfig')

/-- If two cuts of a list differ, the item at which one is made stands behind that of
the other. -/
theorem eq_or_mem_of_cuts {β : Type} {items earlier earlier' later later' : List β}
    {item item' : β} (h : items = earlier ++ item :: later)
    (h' : items = earlier' ++ item' :: later') :
    item = item' ∨ item' ∈ later ∨ item ∈ later' := by
  subst h
  rcases List.append_eq_append_iff.1 h' with ⟨middle, hearlier, hrest⟩ | ⟨middle, hearlier, hrest⟩
  · cases middle with
    | nil => exact Or.inl (List.cons.inj hrest).1
    | cons first middle =>
      obtain ⟨-, hlater⟩ := List.cons.inj hrest
      exact Or.inr (Or.inl (by simp [hlater]))
  · cases middle with
    | nil => exact Or.inl (List.cons.inj hrest).1.symm
    | cons first middle =>
      obtain ⟨-, hlater⟩ := List.cons.inj hrest
      exact Or.inr (Or.inr (by simp [hlater]))

/-- No two things are in force for one file. -/
theorem InForce.unique {path : String} {setting other : Option α}
    (h : InForce tree stated path setting) (hother : InForce tree stated path other) :
    setting = other := by
  induction h generalizing other with
  | own hholds hstated =>
    cases hother with
    | own hholds' hstated' =>
      obtain rfl := hholds.unique hholds'
      exact hstated.symm.trans hstated'
    | last hholds' hstated' =>
      obtain rfl := hholds.unique hholds'
      cases hstated.symm.trans hstated'
    | nowhere hholds' hstated' =>
      obtain rfl := hholds.unique hholds'
      cases hstated.symm.trans hstated'
  | last hholds hstated hnamed _ _ ihbase ihlater =>
    cases hother with
    | own hholds' hstated' =>
      obtain rfl := hholds.unique hholds'
      cases hstated.symm.trans hstated'
    | last hholds' _ hnamed' hbase' hlater' =>
      obtain rfl := hholds.unique hholds'
      rcases eq_or_mem_of_cuts hnamed hnamed' with rfl | hmem | hmem
      · exact ihbase hbase'
      · cases ihlater _ hmem hbase'
      · cases ihbase (hlater' _ hmem)
    | nowhere hholds' _ hnamed' =>
      obtain rfl := hholds.unique hholds'
      exact ihbase (hnamed' _ (by simp [hnamed]))
  | nowhere hholds hstated _ ih =>
    cases hother with
    | own hholds' hstated' =>
      obtain rfl := hholds.unique hholds'
      cases hstated.symm.trans hstated'
    | last hholds' _ hnamed' hbase' _ =>
      obtain rfl := hholds.unique hholds'
      exact ih _ (by simp [hnamed']) hbase'
    | nowhere _ _ _ => rfl

end InForce

end EnumInline.TsConfig
