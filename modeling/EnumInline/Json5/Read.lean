import EnumInline.Json5.Basic
import EnumInline.Json5.Text
import EnumInline.Text.Pieces

/-!
Reading JSON5: single or double quotes, names without quotes, comments, and commas before a closing
bracket.
-/

namespace EnumInline.Json5

open Text

private def word? (word : String) (value : Json5) (text : List Char) : Option (Json5 × List Char) :=
  (dropStart? word.toList text).map fun rest => (value, rest)

/-- After an element: goes on behind a comma, or with the closing bracket, or else fails. -/
private def afterElement? (close : Char) (text : List Char) : Option (List Char) :=
  match trimBlanks text with
  | c :: rest =>
      if c == ',' then some (trimBlanks rest) else if c == close then some (c :: rest) else none
  | [] => none

mutual

/-- Reads a value at the start of a text; `fuel` bounds the depth and length of arrays and objects. -/
def readValue? : (fuel : Nat) → List Char → Option (Json5 × List Char)
  | 0, _ => none
  | fuel + 1, text =>
      match text with
      | 'n' :: _ => word? "null" .null text
      | 't' :: _ => word? "true" (.bool true) text
      | 'f' :: _ => word? "false" (.bool false) text
      | '"' :: rest =>
          (readQuoted? '"' text.length rest).map fun (value, rest) =>
            (.string (String.ofList value), rest)
      | '\'' :: rest =>
          (readQuoted? '\'' text.length rest).map fun (value, rest) =>
            (.string (String.ofList value), rest)
      | '[' :: rest =>
          (readElements? fuel (trimBlanks rest)).map fun (elements, rest) => (.array elements, rest)
      | '\x7b' :: rest =>
          (readMembers? fuel (trimBlanks rest)).map fun (members, rest) => (.object members, rest)
      | _ => (dropNumber? text).map fun rest => (.number, rest)

def readElements? : (fuel : Nat) → List Char → Option (List Json5 × List Char)
  | 0, _ => none
  | fuel + 1, text =>
      if text.head? == some ']' then some ([], text.drop 1)
      else
        (readValue? fuel text).bind fun (element, rest) =>
          (afterElement? ']' rest).bind fun rest =>
            (readElements? fuel rest).map fun (elements, rest) => (element :: elements, rest)

def readMembers? : (fuel : Nat) → List Char → Option (List (String × Json5) × List Char)
  | 0, _ => none
  | fuel + 1, text =>
      if text.head? == some '\x7d' then some ([], text.drop 1)
      else
        (readKey? text).bind fun (key, rest) =>
          match trimBlanks rest with
          | ':' :: rest =>
              (readValue? fuel (trimBlanks rest)).bind fun (value, rest) =>
                (afterElement? '\x7d' rest).bind fun rest =>
                  (readMembers? fuel rest).map fun (members, rest) => ((key, value) :: members, rest)
          | _ => none

end

def read? (text : String) : Option Json5 :=
  match readValue? (text.toList.length + 1) (trimBlanks text.toList) with
  | some (value, rest) => if (trimBlanks rest).isEmpty then some value else none
  | none => none

end EnumInline.Json5
