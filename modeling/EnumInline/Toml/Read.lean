import EnumInline.Toml.Text

/-!
Reading the part of TOML in which settings are written: keys whose values are strings, lists of strings or
truth values. No other document holds settings, so no other is read.
-/

namespace EnumInline.Toml

open Text

inductive Value where
  | string (text : String)
  | strings (texts : List String)
  | bool (value : Bool)
  deriving DecidableEq, Repr

/-- Reads the strings of a list and its closing bracket; `fuel` bounds their number. -/
def readStrings? : (fuel : Nat) → List Char → Option (List String × List Char)
  | 0, _ => none
  | fuel + 1, text =>
      match trimLines text with
      | ']' :: rest => some ([], rest)
      | text =>
          (readString? text).bind fun (first, rest) =>
            match trimLines rest with
            | ',' :: rest => (readStrings? fuel rest).map fun (others, rest) => (first :: others, rest)
            | ']' :: rest => some ([first], rest)
            | _ => none

def readValue? (text : List Char) : Option (Value × List Char) :=
  match text with
  | '[' :: rest => (readStrings? text.length rest).map fun (texts, rest) => (.strings texts, rest)
  | 't' :: _ => (dropStart? "true".toList text).map fun rest => (.bool true, rest)
  | 'f' :: _ => (dropStart? "false".toList text).map fun rest => (.bool false, rest)
  | _ => (readString? text).map fun (text, rest) => (.string text, rest)

/-- What follows the end of a line, if only a comment comes before it. -/
def afterLine? (text : List Char) : Option (List Char) :=
  let rest := skipComment (skipGap text)
  if rest.isEmpty then some [] else dropLineEnd? rest

/-- Reads a key with its value, up to the end of the line. -/
def readPair? (text : List Char) : Option ((String × Value) × List Char) :=
  (readKey? text).bind fun (key, rest) =>
    match skipGap rest with
    | '=' :: rest =>
        (readValue? (skipGap rest)).bind fun (value, rest) =>
          (afterLine? rest).map fun rest => ((key, value), rest)
    | _ => none

/-- Reads the entries of a document; `fuel` bounds their number. -/
def readEntries? : (fuel : Nat) → List Char → Option (List (String × Value))
  | 0, _ => none
  | fuel + 1, text =>
      match trimLines text with
      | [] => some []
      | text =>
          (readPair? text).bind fun (entry, rest) => (readEntries? fuel rest).map (entry :: ·)

/-- Reads a document. A mark of the byte order may come first. -/
def read? (text : String) : Option (List (String × Value)) :=
  let chars := text.toList
  let chars := if chars.head?.any (·.toNat == 0xfeff) then chars.drop 1 else chars
  readEntries? (chars.length + 1) chars

end EnumInline.Toml
