import EnumInline.Binding.Statement
import EnumInline.Enum.Declaration
import EnumInline.Failure
import EnumInline.Markup.ScriptBlocks
import EnumInline.ModuleId
import EnumInline.Source.Kind
import EnumInline.TypeScript.Parse

/-!
A source file reduced to what the analysis needs: its constant enums, its imports and its exports.
-/

namespace EnumInline

structure SourceModule where
  path : String
  id : String
  enums : List Enum.Declaration
  imports : List ImportStatement
  exports : List ExportStatement
  deriving DecidableEq, Repr

inductive SourceFile where
  | parsed (module : SourceModule)
  /-- A file without TypeScript. -/
  | skipped (path : String)
  deriving DecidableEq, Repr

namespace SourceFile

/-- Why a file is skipped. -/
def skipReason : String := "no lang=\"ts\" script block"

def module? : SourceFile → Option SourceModule
  | .parsed module => some module
  | .skipped _ => none

end SourceFile

namespace SourceModule

def ofItems (path : String) (items : List TypeScript.Item) : SourceModule :=
  ⟨path, ModuleId.ofPath path, Enum.Declaration.ofItems items, ImportStatement.ofItems items,
    ExportStatement.ofItems items⟩

def ofScript (path : String) (elements : Bool) (script : List Char) :
    Except Failure SourceFile :=
  match TypeScript.parse elements script with
  | .ok items => .ok (.parsed (ofItems path items))
  | .error location => .error (.parse path "" (some location))

def read (path source : String) : Except Failure SourceFile :=
  match Source.Kind.ofPath path with
  | .script elements => ofScript path elements source.toList
  | .markup =>
      match Markup.ScriptBlocks.extract? source.toList with
      | none => .ok (.skipped path)
      | some blocks => ofScript path blocks.elements blocks.text

end SourceModule

end EnumInline
