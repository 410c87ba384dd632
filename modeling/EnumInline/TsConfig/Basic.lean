import EnumInline.Json5.Read
import Std.Data.ExtTreeMap

/-!
The settings of a TypeScript project that say where modules are found. Everything else in them is read
over.
-/

namespace EnumInline

abbrev AliasTargets := Std.ExtTreeMap String (List String)

/-- The content of one settings file. -/
structure TsConfig where
  /-- The files whose settings it takes over, as they are written. -/
  bases : List String
  baseUrl : Option String
  paths : Option AliasTargets

namespace TsConfig

def empty : TsConfig := ⟨[], none, none⟩

private def bases? : Json5 → Option (List String)
  | .string base => some [base]
  | value => value.strings?

/-- Of targets for one pattern, the last count. -/
private def targets? : Json5 → Option AliasTargets
  | .object members => do
      let decoded ← members.mapM fun (pattern, value) => value.strings?.map fun targets => (pattern, targets)
      some (decoded.foldl (fun paths (pattern, targets) => paths.insert pattern targets) ∅)
  | _ => none

private def compilerOptions? (value : Json5) : Option (Option String × Option AliasTargets) := do
  match ← value.fields? ["baseUrl", "paths"] with
  | [baseUrl, paths] => some (← baseUrl.setting? Json5.string?, ← paths.setting? targets?)
  | _ => none

def ofJson5? (value : Json5) : Option TsConfig := do
  match ← value.fields? ["extends", "compilerOptions"] with
  | [bases, options] =>
      let bases ← bases.setting? bases?
      let options ← options.setting? compilerOptions?
      some ⟨bases.getD [], options.bind (·.1), options.bind (·.2)⟩
  | _ => none

/-- Reads the text of a settings file. A blank text sets nothing. -/
def read? (text : String) : Option TsConfig :=
  if text.toList.all Text.isBlank then some empty else (Json5.read? text).bind ofJson5?

end TsConfig

end EnumInline
