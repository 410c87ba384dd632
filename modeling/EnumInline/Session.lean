import EnumInline.Analysis
import EnumInline.Hook
import EnumInline.Setup
import EnumInline.TsConfig.Load

/-!
The analysis of a project on disk. All files are read once, when the analysis is made; afterwards only the
files that are to be transformed are read.
-/

namespace EnumInline

/-- A finished analysis. -/
structure Session where
  options : Options
  /-- The number of files that were gathered. -/
  fileCount : Nat
  analysis : Analysis

namespace Session

/-- The largest file that is read, in bytes. -/
def maxFileSize : Nat := 10000000

/-- The aliases of a project. Without the file they are in, there are none, unless the file was asked
for. -/
def loadAliases (tree : FileTree) (options : Options) : Except Failure Aliases :=
  if tree.contains options.tsconfig then TsConfig.load tree options.tsconfig
  else if options.tsconfigRequired then .error (.config options.tsconfig .tsconfigNotFound)
  else .ok .empty

def readSource (tree : FileTree) (path : String) : Except Failure SourceFile := do
  let content ← (tree.content path).mapError (Failure.io path)
  if maxFileSize < content.size then .error (.io path (.tooLarge content.size maxFileSize))
  let source ← (tree.read path).mapError (Failure.io path)
  SourceModule.read path source

/-- Analyses a project. -/
def analyze (tree : FileTree) (options : Options) : Except Failure Session := do
  let aliases ← loadAliases tree options
  let files ← Source.gather tree options.sourceDir options.filePattern options.excludeDirs
  let sources ← files.mapM (readSource tree)
  let modules := sources.filterMap SourceFile.module?
  let analysis ←
    (Analysis.ofModules aliases options.inlineLocal modules).mapError Failure.unsupportedMember
  .ok ⟨options, files.length, analysis⟩

/-- Analyses a project for which the paths are not settled yet. -/
def start (tree : FileTree) (setup : Setup) : Except Failure Session := do
  analyze tree (← setup.options tree)

def table (session : Session) : ReplacementTable := session.analysis.table

def hook (session : Session) : Hook := ⟨session.table, session.options.vendorDirs⟩

def modulePath? (session : Session) (id : String) : Option String :=
  (Project.pathsOf session.analysis.project.modules)[id]?

/-- The text to load instead of `code`, if anything in the file can be replaced. -/
def transform (session : Session) (id code : String) : Option String :=
  session.hook.transform id code

/-- The text to load instead of what is in the file at a path, if anything in it can be replaced. -/
def transformFile (session : Session) (tree : FileTree) (path : String) :
    Except Failure (Option String) := do
  let code ← (tree.read path).mapError (Failure.io path)
  let id ← (tree.canonicalize path).mapError (Failure.io path)
  .ok (session.transform id code)

end Session

end EnumInline
