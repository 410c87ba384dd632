import EnumInline.Double.Reading

/-!
The tokens of JSON5: blanks and comments, strings, names and numbers. Each reader takes the start of a
text and gives what it reads together with the rest.
-/

namespace EnumInline.Json5

open Text

def isLineEnd (c : Char) : Bool :=
  c == '\n' || c == '\r' || c.toNat == 0x2028 || c.toNat == 0x2029

def isSpace (c : Char) : Bool := (isBlank c && c.toNat != 0x85) || c.toNat == 0xfeff

/-- What follows the end of a comment between stars, if it ends. -/
def afterBlockComment? : List Char → Option (List Char)
  | '*' :: '/' :: rest => some rest
  | _ :: rest => afterBlockComment? rest
  | [] => none

/-- The text without blanks and comments at its start; `fuel` bounds their number. -/
def skipBlanks : (fuel : Nat) → List Char → List Char
  | 0, text => text
  | fuel + 1, text =>
      let text := text.dropWhile isSpace
      match text with
      | '/' :: '/' :: rest => skipBlanks fuel (rest.dropWhile fun c => !isLineEnd c)
      | '/' :: '*' :: rest =>
          match afterBlockComment? rest with
          | some rest => skipBlanks fuel rest
          | none => text
      | _ => text

def trimBlanks (text : List Char) : List Char := skipBlanks (text.length + 1) text

/-- The value of `count` hexadecimal digits. -/
def readHex? (count : Nat) (text : List Char) : Option (Nat × List Char) :=
  let digits := text.take count
  if digits.length < count then none
  else
    (digits.mapM (Double.digitValue? 16)).map fun values =>
      (values.foldl (fun total digit => total * 16 + digit) 0, text.drop count)

/-- The number that `\u` announces: one of four digits, or two such that are halves of a character. -/
def readUnit? (text : List Char) : Option (Char × List Char) :=
  (readHex? 4 text).bind fun (unit, rest) =>
    if 0xdc00 ≤ unit ∧ unit < 0xe000 then none
    else if 0xd800 ≤ unit ∧ unit < 0xdc00 then
      match rest with
      | '\\' :: 'u' :: rest =>
          (readHex? 4 rest).bind fun (low, rest) =>
            if 0xdc00 ≤ low ∧ low < 0xe000 then
              some (Char.ofNat (0x10000 + (unit - 0xd800) * 0x400 + (low - 0xdc00)), rest)
            else none
      | _ => none
    else some (Char.ofNat unit, rest)

/-- The character for a letter after a backslash. -/
def escaped (c : Char) : Char :=
  match c with
  | 'b' => '\x08'
  | 'f' => '\x0c'
  | 'n' => '\n'
  | 'r' => '\r'
  | 't' => '\t'
  | 'v' => '\x0b'
  | '0' => '\x00'
  | c => c

/-- What a backslash and the text after it stand for; a line end stands for nothing. -/
def readEscape? (text : List Char) : Option (List Char × List Char) :=
  match text with
  | [] => none
  | '\r' :: '\n' :: rest => some ([], rest)
  | 'x' :: rest => (readHex? 2 rest).map fun (value, rest) => ([Char.ofNat value], rest)
  | 'u' :: rest => (readUnit? rest).map fun (c, rest) => ([c], rest)
  | c :: rest =>
      if isLineEnd c then some ([], rest)
      else if '1' ≤ c ∧ c ≤ '9' then none
      else some ([escaped c], rest)

/-- Reads a string up to the quote that closes it; `fuel` bounds its length. -/
def readQuoted? (quote : Char) : (fuel : Nat) → List Char → Option (List Char × List Char)
  | 0, _ | _, [] => none
  | fuel + 1, c :: rest =>
      if c == quote then some ([], rest)
      else if c == '\\' then
        (readEscape? rest).bind fun (taken, rest) =>
          (readQuoted? quote fuel rest).map fun (text, rest) => (taken ++ text, rest)
      else if isLineEnd c then none
      else (readQuoted? quote fuel rest).map fun (text, rest) => (c :: text, rest)

/-- Reads a name without quotes; `fuel` bounds its length. -/
def readName : (fuel : Nat) → (inClass : Char → Bool) → List Char → Option (List Char × List Char)
  | 0, _, text => some ([], text)
  | fuel + 1, inClass, text =>
      match text with
      | '\\' :: 'u' :: rest =>
          (readUnit? rest).bind fun (c, rest) =>
            (readName fuel continuesName rest).map fun (name, rest) => (c :: name, rest)
      | c :: rest =>
          if inClass c then (readName fuel continuesName rest).map fun (name, rest) => (c :: name, rest)
          else some ([], text)
      | [] => some ([], text)

def readKey? (text : List Char) : Option (String × List Char) :=
  match text with
  | '"' :: rest => (readQuoted? '"' text.length rest).map fun (key, rest) => (String.ofList key, rest)
  | '\'' :: rest => (readQuoted? '\'' text.length rest).map fun (key, rest) => (String.ofList key, rest)
  | _ =>
      (readName text.length startsName text).bind fun (key, rest) =>
        if key.isEmpty then none else some (String.ofList key, rest)

def dropExponent? (text : List Char) : Option (Int × List Char) :=
  match text with
  | mark :: rest =>
      if mark == 'e' || mark == 'E' then
        let negative := rest.head? == some '-'
        let rest := if negative || rest.head? == some '+' then rest.drop 1 else rest
        let digits := rest.takeWhile isAsciiDigit
        if digits.isEmpty then none
        else
          let size : Int := Double.wholeOfDigits digits
          some (if negative then -size else size, rest.drop digits.length)
      else none
  | [] => none

def isFinite : Double → Bool
  | .finite _ _ _ => true
  | _ => false

/-- Passes over a decimal number. A whole number must fit into sixty-four bits, any other must be
finite. -/
def dropDecimal? (negative : Bool) (text : List Char) : Option (List Char) :=
  let digits := text.takeWhile isAsciiDigit
  let whole := if digits.head? == some '0' then digits.take 1 else digits
  let rest := text.drop whole.length
  let (fraction, hasPoint, rest) := match rest with
    | '.' :: rest => (rest.takeWhile isAsciiDigit, true, rest.dropWhile isAsciiDigit)
    | _ => ([], false, rest)
  if whole.isEmpty && fraction.isEmpty then none
  else
    match dropExponent? rest with
    | some (exponent, rest) =>
        if isFinite (Double.ofParts negative whole fraction exponent) then some rest else none
    | none =>
        if hasPoint then
          if isFinite (Double.ofParts negative whole fraction 0) then some rest else none
        else if Double.wholeOfDigits whole < Nat.pow 2 63 + (if negative then 1 else 0) then some rest
        else none

/-- Passes over a hexadecimal number after its mark; it must fit into thirty-two bits. -/
def dropHexadecimal? (text : List Char) : Option (List Char) :=
  let digits := text.takeWhile fun c => (Double.digitValue? 16 c).isSome
  let value := digits.foldl (fun total c => total * 16 + (Double.digitValue? 16 c).getD 0) 0
  if digits.isEmpty || Nat.pow 2 32 ≤ value then none else some (text.drop digits.length)

/-- Passes over a number. A hexadecimal number has no sign. -/
def dropNumber? (text : List Char) : Option (List Char) :=
  let negative := text.head? == some '-'
  let signed := negative || text.head? == some '+'
  let rest := if signed then text.drop 1 else text
  match rest with
  | '0' :: 'x' :: rest | '0' :: 'X' :: rest => if signed then none else dropHexadecimal? rest
  | 'I' :: _ => if "Infinity".toList.isPrefixOf rest then some (rest.drop 8) else none
  | 'N' :: _ => if "NaN".toList.isPrefixOf rest then some (rest.drop 3) else none
  | _ => dropDecimal? negative rest

end EnumInline.Json5
