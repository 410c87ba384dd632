import EnumInline.Double.Basic
import EnumInline.Text.Character

/-!
Reading numbers. A decimal numeral denotes an exact ratio and is rounded once; a numeral in another
radix is accumulated digit by digit, rounding at each one.
-/

namespace EnumInline.Double

open Text

def digitValue? (radix : Nat) (c : Char) : Option Nat :=
  let value? :=
    if isAsciiDigit c then some (c.toNat - '0'.toNat)
    else if 'a' ≤ c ∧ c ≤ 'f' then some (c.toNat - 'a'.toNat + 10)
    else if 'A' ≤ c ∧ c ≤ 'F' then some (c.toNat - 'A'.toNat + 10)
    else none
  value?.filter (· < radix)

def wholeOfDigits (digits : List Char) : Nat :=
  digits.foldl (fun total c => total * 10 + (c.toNat - '0'.toNat)) 0

/-- The double nearest to `digits × 10 ^ exponent`. Exponents far beyond the range are settled by the
number of digits alone. -/
def ofDecimal (negative : Bool) (digits : List Char) (exponent : Int) : Double :=
  let significant := digits.dropWhile (· == '0')
  let size : Int := significant.length + exponent
  if significant.isEmpty || size < -400 then .finite negative 0 isMagnitude_zero
  else if 400 < size then .infinity negative
  else
    let whole := wholeOfDigits significant * unitsPerOne
    if exponent < 0 then nearest negative whole (Nat.pow 10 exponent.natAbs)
    else nearest negative (whole * Nat.pow 10 exponent.natAbs) 1

/-- The number denoted by whole digits, fraction digits and an exponent. -/
def ofParts (negative : Bool) (whole fraction : List Char) (exponent : Int) : Double :=
  ofDecimal negative (whole ++ fraction) (exponent - fraction.length)

/-- Accumulates the digits of a numeral in the given radix. -/
def ofRadix (radix : Nat) (digits : List Char) : Double :=
  digits.foldl (fun total c => total.scaleAdd radix ((digitValue? radix c).getD 0)) zero

theorem isUnsigned_ofDecimal (digits : List Char) (exponent : Int) :
    (ofDecimal false digits exponent).IsUnsigned := by
  unfold ofDecimal
  dsimp only
  split
  · exact isUnsigned_zero
  split
  · exact .infinity
  split <;> exact isUnsigned_nearest _ _

theorem isUnsigned_ofRadix (radix : Nat) (digits : List Char) :
    (ofRadix radix digits).IsUnsigned := by
  unfold ofRadix
  apply List.foldlRecOn digits _ isUnsigned_zero
  exact fun total htotal c _ => htotal.scaleAdd radix _

private def readSign : List Char → Bool × List Char
  | '-' :: rest => (true, rest)
  | '+' :: rest => (false, rest)
  | rest => (false, rest)

private def readExponent? : List Char → Option Int
  | [] => some 0
  | mark :: rest =>
      if mark == 'e' || mark == 'E' then
        let (negative, digits) := readSign rest
        if digits.isEmpty || !digits.all isAsciiDigit then none
        else
          let size : Int := wholeOfDigits digits
          some (if negative then -size else size)
      else none

private def readMagnitude? (negative : Bool) (text : List Char) : Option Double :=
  let whole := text.takeWhile isAsciiDigit
  let (fraction, rest) :=
    match text.dropWhile isAsciiDigit with
    | '.' :: rest => (rest.takeWhile isAsciiDigit, rest.dropWhile isAsciiDigit)
    | rest => ([], rest)
  if whole.isEmpty && fraction.isEmpty then none
  else (readExponent? rest).map (ofParts negative whole fraction)

/-- Reads a signed decimal numeral, or the name of a number that is not finite. -/
def read? (text : List Char) : Option Double :=
  let (negative, magnitude) := readSign text
  let name := String.ofList (magnitude.map Char.toLower)
  if name == "inf" || name == "infinity" then some (.infinity negative)
  else if name == "nan" then some .nan
  else readMagnitude? negative magnitude

end EnumInline.Double
