import EnumInline.Text.Pieces

/-!
The tokens of TOML: blanks, comments, keys and strings. Each reader takes the start of a text and gives what
it reads together with the rest.
-/

namespace EnumInline.Toml

open Text

/-- A blank within a line. -/
def isGap (c : Char) : Bool := c == ' ' || c == '\t'

/-- A character that may stand in a line of text as it is. -/
def isPlain (c : Char) : Bool := c == '\t' || (0x20 ≤ c.toNat && c.toNat != 0x7f)

def skipGap (text : List Char) : List Char := text.dropWhile isGap

def dropLineEnd? : List Char → Option (List Char)
  | '\n' :: rest | '\r' :: '\n' :: rest => some rest
  | _ => none

def skipComment (text : List Char) : List Char :=
  if text.head? == some '#' then text.dropWhile isPlain else text

/-- The text without blanks, comments and line ends at its start; `fuel` bounds their number. -/
def skipLines : (fuel : Nat) → List Char → List Char
  | 0, text => text
  | fuel + 1, text =>
      let text := skipComment (skipGap text)
      match dropLineEnd? text with
      | some rest => skipLines fuel rest
      | none => text

def trimLines (text : List Char) : List Char := skipLines (text.length + 1) text

private def digit? (c : Char) : Option Nat :=
  if isAsciiDigit c then some (c.toNat - '0'.toNat)
  else if 'a' ≤ c ∧ c ≤ 'f' then some (c.toNat - 'a'.toNat + 10)
  else if 'A' ≤ c ∧ c ≤ 'F' then some (c.toNat - 'A'.toNat + 10)
  else none

private def readNumbered? (count : Nat) (text : List Char) : Option (Char × List Char) :=
  let digits := text.take count
  if digits.length < count then none
  else
    (digits.mapM digit?).bind fun values =>
      let number := values.foldl (fun total digit => total * 16 + digit) 0
      if number.isValidChar then some (Char.ofNat number, text.drop count) else none

/-- The character that a backslash and the text after it stand for. -/
def readEscape? : List Char → Option (Char × List Char)
  | 'b' :: rest => some ('\x08', rest)
  | 't' :: rest => some ('\t', rest)
  | 'n' :: rest => some ('\n', rest)
  | 'f' :: rest => some ('\x0c', rest)
  | 'r' :: rest => some ('\r', rest)
  | '"' :: rest => some ('"', rest)
  | '\\' :: rest => some ('\\', rest)
  | 'u' :: rest => readNumbered? 4 rest
  | 'U' :: rest => readNumbered? 8 rest
  | _ => none

/-- Reads a string in double quotes after its opening quote; `fuel` bounds its length. -/
def readBasic? : (fuel : Nat) → List Char → Option (List Char × List Char)
  | 0, _ | _, [] => none
  | _, '"' :: rest => some ([], rest)
  | fuel + 1, '\\' :: rest =>
      (readEscape? rest).bind fun (c, rest) =>
        (readBasic? fuel rest).map fun (text, rest) => (c :: text, rest)
  | fuel + 1, c :: rest =>
      if isPlain c then (readBasic? fuel rest).map fun (text, rest) => (c :: text, rest) else none

/-- Reads a string in single quotes after its opening quote. -/
def readLiteral? (text : List Char) : Option (List Char × List Char) :=
  let taken := text.takeWhile fun c => isPlain c && c != '\''
  match text.drop taken.length with
  | '\'' :: rest => some (taken, rest)
  | _ => none

/-- The blanks and line ends that a backslash at the end of a line takes with it. -/
private def skipFolded (text : List Char) : Option (List Char) :=
  (dropLineEnd? (skipGap text)).map fun rest =>
    rest.dropWhile fun c => isGap c || c == '\n' || c == '\r'

/-- Reads a string of several lines, up to three quotes. Up to two quotes directly before them belong to
the string. Backslashes are escapes if `escapes` holds; `fuel` bounds the length. -/
def readBlock? (quote : Char) (escapes : Bool) : (fuel : Nat) → List Char →
    Option (List Char × List Char)
  | 0, _ | _, [] => none
  | fuel + 1, c :: rest =>
      let go (taken rest : List Char) : Option (List Char × List Char) :=
        (readBlock? quote escapes fuel rest).map fun (text, rest) => (taken ++ text, rest)
      if c == quote then
        let quotes := ((c :: rest).takeWhile (· == quote)).take 5
        let rest := (c :: rest).drop quotes.length
        if quotes.length < 3 then go quotes rest else some (quotes.drop 3, rest)
      else if c == '\\' && escapes then
        match skipFolded rest with
        | some rest => go [] rest
        | none => (readEscape? rest).bind fun (c, rest) => go [c] rest
      else
        match dropLineEnd? (c :: rest) with
        | some rest => go ['\n'] rest
        | none => if isPlain c then go [c] rest else none

/-- A line end directly after the opening quotes does not belong to a string of several lines. -/
private def blockStart (text : List Char) : List Char := (dropLineEnd? text).getD text

def readString? (text : List Char) : Option (String × List Char) :=
  let read := match text with
    | '"' :: '"' :: '"' :: rest => readBlock? '"' true text.length (blockStart rest)
    | '"' :: rest => readBasic? text.length rest
    | '\'' :: '\'' :: '\'' :: rest => readBlock? '\'' false text.length (blockStart rest)
    | '\'' :: rest => readLiteral? rest
    | _ => none
  read.map fun (taken, rest) => (String.ofList taken, rest)

private def isBare (c : Char) : Bool := isAsciiLetter c || isAsciiDigit c || c == '-' || c == '_'

def readKey? (text : List Char) : Option (String × List Char) :=
  let read := match text with
    | '"' :: rest => readBasic? text.length rest
    | '\'' :: rest => readLiteral? rest
    | _ =>
        let word := text.takeWhile isBare
        if word.isEmpty then none else some (word, text.drop word.length)
  read.map fun (key, rest) => (String.ofList key, rest)

end EnumInline.Toml
