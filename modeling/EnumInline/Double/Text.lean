import EnumInline.Double.Shortest

/-!
The text of a number. Whole numbers below `10 ^ 21` are written in plain digits; other numbers in plain
notation if they have few leading or trailing zeros, and with an exponent otherwise. Both zeros are
written `0`.
-/

namespace EnumInline.Double

def zeros (n : Nat) : List Char := List.replicate n '0'

def plainText (digits : List Char) (point : Int) : List Char :=
  if point ≤ 0 then '0' :: '.' :: zeros point.natAbs ++ digits
  else digits.take point.natAbs ++ '.' :: digits.drop point.natAbs

def exponentText (digits : List Char) (point : Int) : List Char :=
  let fraction := if digits.length ≤ 1 then [] else '.' :: digits.drop 1
  digits.take 1 ++ fraction ++ 'e' :: (toString (point - 1)).toList

/-- The digits of `d` with the point where it belongs. With the value written `0.d × 10 ^ point`,
plain notation serves for `-5 < point ≤ 16`. -/
def fractionalText (d : Decimal) : List Char :=
  let digits := Nat.toDigits 10 d.digits
  let point := (digits.length : Int) + d.exponent
  if -5 < point ∧ point ≤ 16 then plainText digits point else exponentText digits point

/-- The first whole number that is written with an exponent, in units. -/
def plainLimit : Nat := Nat.pow 10 21 * unitsPerOne

def magnitudeText (units : Nat) : List Char :=
  let d := shortest units
  if units % unitsPerOne = 0 ∧ units < plainLimit then
    Nat.toDigits 10 (d.digits * Nat.pow 10 d.exponent.toNat)
  else fractionalText d

def text : Double → List Char
  | .nan => "NaN".toList
  | .infinity false => "Infinity".toList
  | .infinity true => "-Infinity".toList
  | .finite negative units _ =>
      if units = 0 then ['0']
      else if negative then '-' :: magnitudeText units
      else magnitudeText units

end EnumInline.Double
