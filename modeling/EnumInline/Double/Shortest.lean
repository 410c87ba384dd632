import EnumInline.Double.Basic

/-!
The fewest decimal digits that read back as a given double. Of two candidates with equally many digits
the one nearer to the number is chosen, and the even one if both are equally near.
-/

namespace EnumInline.Double

/-- The number `digits × 10 ^ exponent`. -/
structure Decimal where
  digits : Nat
  exponent : Int
  deriving DecidableEq, Repr

/-- The number of decimal digits of a whole number; zero has one. -/
def decimalLength (n : Nat) : Nat := (Nat.toDigits 10 n).length

/-- The exponent of the greatest power of ten that is not above a positive magnitude. -/
def decimalExponent (units : Nat) : Int :=
  if unitsPerOne ≤ units then decimalLength (units / unitsPerOne) - 1
  else -(decimalLength ((unitsPerOne - 1) / units) : Int)

/-- Four times the distance to the next smaller double, halved. -/
def reachBelow (units : Nat) : Nat :=
  let excess := excessBits units
  if 0 < excess ∧ units = Nat.pow 2 (52 + excess) then Nat.pow 2 excess else 2 * Nat.pow 2 excess

/-- Four times the distance to the next larger double, halved. -/
def reachAbove (units : Nat) : Nat := 2 * Nat.pow 2 (excessBits units)

/-- The scaled positions of a decimal and of a magnitude: both are multiplied by the same factor, so
that they compare as whole numbers. -/
def scaledDecimal (n : Nat) (exponent : Int) : Nat :=
  if exponent < 0 then n * unitsPerOne else n * Nat.pow 10 exponent.natAbs * unitsPerOne

def scaledUnits (units : Nat) (exponent : Int) : Nat :=
  if exponent < 0 then units * Nat.pow 10 exponent.natAbs else units

/-- Whether `n × 10 ^ exponent` reads back as the double of this many units. The ends of the interval
belong to it if the significand is even. -/
def readsBack (units n : Nat) (exponent : Int) : Bool :=
  let position := 4 * scaledDecimal n exponent
  let low := scaledUnits (4 * units - reachBelow units) exponent
  let high := scaledUnits (4 * units + reachAbove units) exponent
  if units / Nat.pow 2 (excessBits units) % 2 == 0 then low ≤ position && position ≤ high
  else low < position && position < high

/-- The candidate for a grid of decimals: the neighbours of the number on it that read back, the nearer
one first. -/
def nearestOnGrid? (units : Nat) (exponent : Int) : Option Nat :=
  let below := scaledUnits units exponent / scaledDecimal 1 exponent
  let above := below + 1
  match readsBack units below exponent, readsBack units above exponent with
  | true, true =>
      let middle := scaledDecimal (below + above) exponent
      let twice := 2 * scaledUnits units exponent
      if twice < middle then some below
      else if middle < twice then some above
      else some (below + below % 2)
  | true, false => some below
  | false, true => some above
  | false, false => none

/-- Moves trailing zeros of the digits into the exponent; `fuel` bounds their number. -/
def dropZeros : Nat → Decimal → Decimal
  | 0, d => d
  | fuel + 1, d =>
      if d.digits ≠ 0 ∧ d.digits % 10 = 0 then dropZeros fuel ⟨d.digits / 10, d.exponent + 1⟩ else d

/-- Tries grids of one more digit each, the coarsest first. -/
def searchGrids (units : Nat) : Nat → Int → Decimal
  | 0, exponent => ⟨scaledUnits units exponent / scaledDecimal 1 exponent, exponent⟩
  | more + 1, exponent =>
      match nearestOnGrid? units exponent with
      | some n => dropZeros 17 ⟨n, exponent⟩
      | none => searchGrids units more (exponent - 1)

/-- The shortest decimal that reads back as a positive magnitude. -/
def shortest (units : Nat) : Decimal := searchGrids units 17 (decimalExponent units)

end EnumInline.Double
