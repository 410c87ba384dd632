import EnumInline.FileTree.Lookup
import EnumInline.Toml.Read

/-!
The settings file of a project. Every setting may be left out; nothing else may stand in the file, and
nothing twice.
-/

namespace EnumInline

structure Settings where
  sourceDir : Option String
  filePattern : Option String
  tsconfigPath : Option String
  excludeDirs : Option (List String)
  vendorDirs : Option (List String)
  inlineLocal : Option Bool
  deriving DecidableEq, Repr

namespace Settings

def empty : Settings := ⟨none, none, none, none, none, none⟩

def fileName : String := "constinline.toml"

/-- Takes one entry in. -/
def set? (settings : Settings) : String × Toml.Value → Option Settings
  | ("source_dir", .string text) => some { settings with sourceDir := some text }
  | ("file_pattern", .string text) => some { settings with filePattern := some text }
  | ("tsconfig_path", .string text) => some { settings with tsconfigPath := some text }
  | ("exclude_dirs", .strings texts) => some { settings with excludeDirs := some texts }
  | ("vendor_dirs", .strings texts) => some { settings with vendorDirs := some texts }
  | ("inline_local", .bool value) => some { settings with inlineLocal := some value }
  | _ => none

def read? (text : String) : Option Settings := do
  let entries ← Toml.read? text
  if (entries.map (·.1)).Nodup then entries.foldlM set? empty else none

def load (tree : FileTree) (root : String) : Except Failure (Option Settings) := do
  let path := Path.join root fileName
  if tree.contains path then
    let text ← (tree.read path).mapError (Failure.io path)
    match read? text with
    | some settings => .ok (some settings)
    | none => .error (.config path .malformedSettings)
  else .ok none

end Settings

end EnumInline
