import EnumInline.Substitution

/-!
What a bundler asks when it loads a file: the text with its enum members inlined. Files in directories of
vendors, and files without entries, pass as they are.
-/

namespace EnumInline

open Text

/-- A table together with the names of the directories that are left alone. -/
structure Hook where
  table : ReplacementTable
  vendorDirs : List String

namespace Hook

/-- The path in an identifier, without the query or fragment that a bundler adds. -/
def cleanId : String → String := onChars fun id => id.takeWhile fun c => c != '?' && c != '#'

def isVendorPath (vendorDirs : List String) (path : String) : Bool :=
  (splitWhere (fun c => c == '/' || c == '\\') path.toList).any fun segment =>
    vendorDirs.contains (String.ofList segment)

/-- The text to load instead of `code`, if anything in the file can be replaced. -/
def transform (hook : Hook) (id code : String) : Option String :=
  let path := cleanId id
  if isVendorPath hook.vendorDirs path then none
  else (hook.table.entriesForPath? path).map fun entries => Substitution.replace entries code

end Hook

end EnumInline
