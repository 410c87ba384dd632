import EnumInline.Json.Quoted

/-!
JSON objects over members whose values are written already, on one line or with one member a line.
-/

namespace EnumInline.Json

private def field (separator : List Char) (member : List Char × List Char) : List Char :=
  quote member.1 ++ separator ++ member.2

def compactObject (members : List (List Char × List Char)) : List Char :=
  '\x7b' :: List.intercalate [','] (members.map (field [':'])) ++ ['\x7d']

private def indentation (depth : Nat) : List Char := List.replicate (2 * depth) ' '

/-- An object whose members stand on lines of their own, two blanks further in than the object, which
stands `depth` steps in. An object without members is written on one line. -/
def indentedObject (depth : Nat) (members : List (List Char × List Char)) : List Char :=
  if members.isEmpty then ['\x7b', '\x7d']
  else
    let lines := members.map fun member => indentation (depth + 1) ++ field [':', ' '] member
    '\x7b' :: '\n' :: List.intercalate [',', '\n'] lines ++ '\n' :: indentation depth ++ ['\x7d']

end EnumInline.Json
