import EnumInline.Digest.Sha256
import EnumInline.Json.Object
import EnumInline.ModuleId
import Std.Data.ExtTreeMap

/-!
Tables of replacements: for each file, the member accesses in it that can be replaced, with the literals
that replace them. Files and accesses are ordered, so that equal tables have equal texts.
-/

namespace EnumInline

/-- The literal for each access `Enum.Member` of a file. -/
abbrev Entries := Std.ExtTreeMap String String

/-- The entries of each file that has any, by its normalized path. -/
abbrev ReplacementTable := Std.ExtTreeMap String Entries

namespace ReplacementTable

def entriesForPath? (table : ReplacementTable) (path : String) : Option Entries :=
  table[ModuleId.tableKey path]?

def entryCount (table : ReplacementTable) : Nat :=
  table.toList.foldl (fun count (_, entries) => count + entries.size) 0

private def members (entries : Entries) : List (List Char × List Char) :=
  entries.toList.map fun (token, text) => (token.toList, Json.quote text.toList)

def json (table : ReplacementTable) : String :=
  String.ofList <| Json.compactObject <| table.toList.map fun (path, entries) =>
    (path.toList, Json.compactObject (members entries))

def indentedJson (table : ReplacementTable) : String :=
  String.ofList <| Json.indentedObject 0 <| table.toList.map fun (path, entries) =>
    (path.toList, Json.indentedObject 1 (members entries))

def digest (table : ReplacementTable) : String := Digest.sha256 table.json.toUTF8.toList

private def listing (entries : Entries) : String :=
  entries.toList.foldl (fun lines (token, text) => lines ++ "  " ++ token ++ " => " ++ text ++ "\n") ""

/-- The table as a listing to read. -/
def plain (table : ReplacementTable) : String :=
  if table.isEmpty then "No const enum references to inline.\n"
  else
    let header :=
      "REPLACEMENTS (" ++ toString table.size ++ " files, " ++ toString table.entryCount ++
        " entries):\n"
    table.toList.foldl (fun lines (path, entries) => lines ++ path ++ "\n" ++ listing entries) header

end ReplacementTable

end EnumInline
