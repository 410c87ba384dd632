import EnumInline.Text.Pieces

/-!
What a file holds, told from the extension of its name.
-/

namespace EnumInline.Source

open Text

inductive Kind where
  /-- Markup that may hold scripts. -/
  | markup
  /-- A script; elements written as markup are expressions in it if `elements` holds. -/
  | script (elements : Bool)
  deriving DecidableEq, Repr

def fileName? (path : List Char) : Option (List Char) :=
  let segments := (splitWhere (· == '/') path).filter (· != [])
  let named := (segments.reverse.dropWhile (· == ['.'])).head?
  named.filter (· != ['.', '.'])

/-- The text after the last point of a file name. A point at its start does not count. -/
def extension? (path : List Char) : Option (List Char) :=
  (fileName? path).bind fun name =>
    match name with
    | [] => none
    | _ :: rest =>
        if rest.contains '.' then some (rest.reverse.takeWhile (· != '.')).reverse else none

/-- Files that are no markup are scripts, whatever their extension. -/
def Kind.ofPath (path : String) : Kind :=
  match (extension? path.toList).map String.ofList with
  | some "vue" | some "svelte" => .markup
  | some "tsx" => .script true
  | _ => .script false

end EnumInline.Source
