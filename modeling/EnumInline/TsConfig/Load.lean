import EnumInline.FileTree.Lookup
import EnumInline.Path.Lexical
import EnumInline.Resolution.Aliases
import EnumInline.TsConfig.Basic

/-!
Loading the settings of a TypeScript project together with those they take over. A file overrides the
files it names, and of these a later one overrides an earlier one. What a file sets is relative to its own
directory.
-/

namespace EnumInline.TsConfig

/-- The settings in force. -/
structure Effective where
  /-- The absolute base directory. -/
  baseUrl : Option String
  /-- The targets of aliases, with the directory of the file that sets them. -/
  paths : Option (AliasTargets × String)

namespace Effective

def empty : Effective := ⟨none, none⟩

/-- The settings, completed by others where they set nothing. -/
def completedBy (settings others : Effective) : Effective :=
  ⟨settings.baseUrl.or others.baseUrl, settings.paths.or others.paths⟩

end Effective

/-- What a file in the given directory sets itself. -/
def own (config : TsConfig) (directory : String) : Effective :=
  ⟨config.baseUrl.map (Path.resolve directory), config.paths.map fun paths => (paths, directory)⟩

/-- The file that a base names, seen from the file at `path`. Bases that are neither relative nor absolute
name packages, which are passed over. -/
def basePath? (path base : String) : Option String :=
  let relative := "./".toList.isPrefixOf base.toList || "../".toList.isPrefixOf base.toList
  if relative || Path.isAbsolute base then
    let named := if ".json".toList.isSuffixOf base.toList then base else base ++ ".json"
    some (Path.join (Path.directory path) named)
  else none

def readFile (tree : FileTree) (path : String) : Except Failure TsConfig := do
  let text ← (tree.read path).mapError (Failure.io path)
  match read? text with
  | some config => .ok config
  | none => .error (.config path .malformedTsconfig)

/-- The settings in force for the file at a path while the files at the places `loading` wait for it. Each
level loads another file of the tree; `fuel` bounds their number. -/
def effective (tree : FileTree) :
    (fuel : Nat) → (loading : List Place) → (path : String) → Except Failure Effective
  | 0, _, path => .error (.config path .extendsCycle)
  | fuel + 1, loading, path => do
      let place ← (tree.locate false path).mapError (Failure.io path)
      if place ∈ loading then .error (.config path .extendsCycle)
      let config ← readFile tree path
      let inherited ← (config.bases.filterMap (basePath? path)).foldlM
        (fun inherited base => do
          .ok ((← effective tree fuel (place :: loading) base).completedBy inherited))
        Effective.empty
      .ok ((config.own (Path.normalize (Path.directory path))).completedBy inherited)

/-- The mapping of one pattern. Patterns without targets map nothing. -/
def mapping? (path base : String) (entry : String × List String) :
    Except Failure (Option PathMapping) :=
  if 1 < entry.1.toList.count '*' then .error (.config path (.severalStars entry.1))
  else if entry.2.isEmpty then .ok none
  else .ok (some (.ofPattern entry.1 (entry.2.map (Path.resolve base))))

/-- The aliases that settings define; `path` is the file that asks for them. -/
def Effective.aliases (settings : Effective) (path : String) : Except Failure Aliases := do
  match settings.paths with
  | none => .ok ⟨[], settings.baseUrl⟩
  | some (targets, directory) =>
      let mappings ← targets.toList.mapM (mapping? path (settings.baseUrl.getD directory))
      .ok ⟨PathMapping.sort (mappings.filterMap id), settings.baseUrl⟩

def load (tree : FileTree) (path : String) : Except Failure Aliases := do
  (← effective tree (tree.entries.size + 1) [] path).aliases path

end EnumInline.TsConfig
