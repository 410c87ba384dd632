import EnumInline.CommandLine.Arguments
import EnumInline.CommandLine.Help
import EnumInline.CommandLine.Report
import EnumInline.Session

/-!
Running the commands on a tree of files. What a run has written and printed before it fails stays.
-/

namespace EnumInline.CommandLine

/-- What a run sees and changes: the tree of files, and what is printed to the two outputs. -/
structure World where
  tree : FileTree
  output : String
  messages : String

/-- The steps of a run, of which each may fail. -/
abbrev Run := EStateM Report World

/-- Looks at the tree of files. -/
def ask {α : Type} (step : FileTree → Except Report α) : Run α := fun world =>
  match step world.tree with
  | .ok found => .ok found world
  | .error report => .error report world

def print (text : String) : Run Unit := modify fun world => { world with output := world.output ++ text }

def tell (text : String) : Run Unit :=
  modify fun world => { world with messages := world.messages ++ text }

/-- Analyses the project of a command. -/
def analyze (tree : FileTree) (root : String) (overrides : Overrides) : Except Report Session := do
  let setup ← (Setup.load tree root).mapError
    (Report.ofFailure ("Failed to load configuration from: " ++ root))
  let setup := { setup with
    filePattern := overrides.pattern.getD setup.filePattern
    tsconfig := overrides.tsconfig.or setup.tsconfig
    inlineLocal := !overrides.noInlineLocal && setup.inlineLocal }
  (Session.start tree setup).mapError (Report.ofFailure ("Analysis failed for: " ++ root))

def leadsUp (step : String) : Bool := step == ".."

/-- Refuses paths for output that could lead out of the current directory. -/
def checkOutput (path : String) : Except Report Unit :=
  if path.toList.contains '\x00' then .error (.ofText "Output path contains null bytes")
  else if Path.isAbsolute path then
    .error (.ofText ("Output path must be relative, not absolute: " ++ path))
  else if (Path.steps path).any leadsUp then
    .error (.ofText ("Path traversal (..) not allowed in output paths: " ++ path))
  else .ok ()

def readFile (path : String) : Run String :=
  ask fun tree => (tree.read path).mapError (Report.ofIo "Failed to read: " path)

def writeFile (path text : String) : Run Unit := fun world =>
  match world.tree.write path text with
  | .ok tree => .ok () { world with tree }
  | .error cause => .error (.ofIo "Failed to write: " path cause) world

/-- Prints a table, or writes it to the file `out`. -/
def runTable (session : Session) (json : Bool) (out : Option String) : Run Unit := do
  let text := if json then session.table.indentedJson ++ "\n" else session.table.plain
  match out with
  | none => print text
  | some path => do
      ask fun _ => checkOutput path
      writeFile path text
      tell ("Table written to " ++ path ++ "\n")

/-- The texts of files with their enum members inlined; none for a file that stays as it is. -/
def transformFiles (tree : FileTree) (session : Session) (files : List String) :
    Except Report (List (String × Option String)) :=
  files.mapM fun path => do
    let text ← (session.transformFile tree path).mapError
      (Report.ofFailure ("Failed to transform: " ++ path))
    .ok (path, text)

/-- Writes one file back, unless it holds the text already. Counts the files that are changed. -/
def writeBack (count : Nat) : String × Option String → Run Nat
  | (_, none) => pure count
  | (path, some text) => do
      let current ← readFile path
      if text == current then pure count
      else
        writeFile path text
        pure (count + 1)

/-- Prints the text of one file; with several files, the name of each comes first. -/
def printFile (several : Bool) (file : String × Option String) : Run Unit := do
  let text ←
    match file.2 with
    | some text => pure text
    | none => readFile file.1
  print ((if several then "==> " ++ file.1 ++ " <==\n" else "") ++ text)

/-- Prints files with their enum members inlined, or writes them back. -/
def runTransform (session : Session) (files : List String) (write : Bool) : Run Unit := do
  let texts ← ask fun tree => transformFiles tree session files
  if write then
    let count ← texts.foldlM writeBack 0
    tell ("Rewrote " ++ toString count ++ " of " ++ toString texts.length ++ " files\n")
  else texts.forM (printFile (1 < texts.length))

/-- Runs a command. -/
def execute : Command → Run Unit
  | .table root overrides json out => do
      runTable (← ask fun tree => analyze tree root overrides) json out
  | .transform files root overrides write => do
      runTransform (← ask fun tree => analyze tree root overrides) files write
  | .digest root overrides => do
      print ((← ask fun tree => analyze tree root overrides).table.digest ++ "\n")

/-- What a run leaves behind: its exit code, what it prints to the two outputs, and the tree of files. -/
structure Outcome extends World where
  code : Nat

/-- What a run leaves behind, whether it succeeds or fails. -/
def Outcome.ofResult : EStateM.Result Report World Unit → Outcome
  | .ok () world => ⟨world, 0⟩
  | .error report world => ⟨{ world with messages := world.messages ++ report.text }, 1⟩

/-- What is said about arguments that are not well-formed. -/
def misuseMessage : String := "error: invalid arguments\n\nFor more information, try '--help'.\n"

def answer (tree : FileTree) : Request → Outcome
  | .help topic => ⟨⟨tree, topic.helpText, ""⟩, 0⟩
  | .version => ⟨⟨tree, version, ""⟩, 0⟩
  | .misuse => ⟨⟨tree, "", misuseMessage⟩, 2⟩
  | .run command => .ofResult (execute command ⟨tree, "", ""⟩)

/-- Runs the program with arguments. -/
def run (tree : FileTree) (arguments : List String) : Outcome := answer tree (read arguments)

end EnumInline.CommandLine
