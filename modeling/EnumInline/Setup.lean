import EnumInline.Settings
import EnumInline.Source.Gather

/-!
What an analysis is asked to do. Settings are taken from the call, from the settings file of the project or
from the defaults, and paths are settled against the root of the project before anything is read.
-/

namespace EnumInline

/-- What is asked for, with paths as they are given. -/
structure Setup where
  root : String
  /-- The directory with the sources, if it is not the root. -/
  sourceDir : Option String
  filePattern : String
  tsconfig : Option String
  excludeDirs : List String
  vendorDirs : List String
  inlineLocal : Bool

/-- What is asked for, with paths that are absolute. -/
structure Options where
  root : String
  sourceDir : String
  filePattern : String
  tsconfig : String
  /-- Whether the analysis fails if there is no file at `tsconfig`. -/
  tsconfigRequired : Bool
  excludeDirs : List String
  vendorDirs : List String
  inlineLocal : Bool

namespace Setup

def defaultVendorDirs : List String := ["node_modules"]

/-- The name under which the settings of the language are looked for in the root. -/
def defaultTsconfig : String := "tsconfig.json"

/-- The defaults for a project. -/
def ofRoot (root : String) : Setup :=
  ⟨root, none, Source.defaultPattern, none, Source.defaultExcludes, defaultVendorDirs, true⟩

/-- Takes over whatever is set in the settings file. -/
def apply (setup : Setup) (settings : Settings) : Setup :=
  { setup with
    sourceDir := settings.sourceDir.or setup.sourceDir
    filePattern := settings.filePattern.getD setup.filePattern
    tsconfig := settings.tsconfigPath.or setup.tsconfig
    excludeDirs := settings.excludeDirs.getD setup.excludeDirs
    vendorDirs := settings.vendorDirs.getD setup.vendorDirs
    inlineLocal := settings.inlineLocal.getD setup.inlineLocal }

/-- The defaults for a project, as far as its settings file sets nothing else. -/
def load (tree : FileTree) (root : String) : Except Failure Setup := do
  match ← Settings.load tree root with
  | none => .ok (ofRoot root)
  | some settings => .ok ((ofRoot root).apply settings)

def canonical (tree : FileTree) (path : String) : Except Failure String :=
  (tree.canonicalize path).mapError (Failure.io path)

/-- Settles the paths. -/
def options (tree : FileTree) (setup : Setup) : Except Failure Options := do
  let root ← canonical tree setup.root
  let sourceDir ←
    match setup.sourceDir with
    | none => .ok root
    | some directory => canonical tree (Path.join root directory)
  .ok ⟨root, sourceDir, setup.filePattern, Path.join root (setup.tsconfig.getD defaultTsconfig),
    setup.tsconfig.isSome, setup.excludeDirs, setup.vendorDirs, setup.inlineLocal⟩

end Setup

end EnumInline
