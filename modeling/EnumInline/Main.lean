import EnumInline.CommandLine.Run
import EnumInline.FileTree.Build

/-!
The program on a real disk. The trees below the working directory and below the root of the project are
read first; whenever a command then fails for want of a file that the disk has, that file is read too and the
command is run again. What the command changes is written at the end.
-/

namespace EnumInline.Disk

def placeOf (path : String) : Place := (Path.steps path).filter (· != "")

/-- The absolute path without links, if there is anything at a path. -/
def realPath? (path : String) : IO (Option String) := do
  try
    let real ← IO.FS.realPath path
    if ← real.pathExists then return some real.toString else return none
  catch _ => return none

/-- What the file at a path holds. -/
def contentOf (path : String) : IO Content := do
  let bytes ← IO.FS.readBinFile path
  match String.fromUTF8? bytes with
  | some text => return .text text
  | none => return .binary bytes.size

mutual

/-- Adds what is at an absolute path, with all that is below it. -/
partial def load (tree : FileTree) (path : String) : IO FileTree := do
  let real ← IO.FS.realPath path
  if ← real.isDir then
    let tree := FileTree.add .directory tree [] (placeOf path)
    (← real.readDir).foldlM loadEntry tree
  else return FileTree.add (.file (← contentOf path)) tree [] (placeOf path)

/-- Adds one entry of a directory. Links that lead nowhere and special files are passed over. -/
partial def loadEntry (tree : FileTree) (entry : IO.FS.DirEntry) : IO FileTree := do
  let path := entry.path.toString
  match (← entry.path.symlinkMetadata).type with
  | .symlink =>
      match ← realPath? path with
      | some target => return FileTree.add (.link target) tree [] (placeOf path)
      | none => return tree
  | .other => return tree
  | _ => load tree path

end

/-- Adds what is at a path if the disk has it and the tree has not. -/
def loadMissing? (tree : FileTree) (path : String) : IO (Option FileTree) := do
  if tree.contains path then return none
  match ← realPath? path with
  | none => return none
  | some real =>
      let loaded ← load tree real
      let linked :=
        if loaded.contains path then loaded
        else FileTree.add (.link real) loaded (loaded.origin path) (placeOf path)
      return if linked.contains path then some linked else none

/-- Executes a command, reading what is missing from the disk. Gives all that was read together with what
the command leaves behind. -/
partial def execute (tree : FileTree) (command : CommandLine.Command) :
    IO (FileTree × CommandLine.Outcome) := do
  let result := CommandLine.execute command ⟨tree, "", ""⟩
  match result with
  | .ok _ _ => return (tree, .ofResult result)
  | .error report _ =>
      match ← (report.path?).bindM (loadMissing? tree) with
      | some tree => execute tree command
      | none => return (tree, .ofResult result)

def rootOf : CommandLine.Command → String
  | .table root _ _ _ | .transform _ root _ _ | .digest root _ => root

/-- Writes the files that differ between two trees. -/
def store (before after : FileTree) : IO Unit := do
  for (place, content) in FileTree.changes before after do
    if let .text text := content then IO.FS.writeFile place.path text

/-- Runs a command in the working directory. -/
def run (command : CommandLine.Command) : IO CommandLine.Outcome := do
  let directory := (← IO.currentDir).toString
  let tree ← load ⟨∅, placeOf directory⟩ directory
  let tree := (← loadMissing? tree (rootOf command)).getD tree
  let (read, outcome) ← execute tree command
  store read outcome.tree
  return outcome

end EnumInline.Disk

open EnumInline in
def main (arguments : List String) : IO UInt32 := do
  let outcome ←
    match CommandLine.read arguments with
    | .run command => Disk.run command
    | request => pure (CommandLine.answer .empty request)
  IO.print outcome.output
  IO.eprint outcome.messages
  return outcome.code.toUInt32
