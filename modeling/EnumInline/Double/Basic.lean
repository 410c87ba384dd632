/-!
Double-precision numbers as exact values. A finite number is a sign and a whole number of units of
`2 ^ -1074`, the smallest positive double, so every operation is integer arithmetic followed by one
rounding to 53 significant bits.
-/

namespace EnumInline

namespace Double

/-- The number one in units is this power of two. -/
def oneExponent : Nat := 1074

def unitsPerOne : Nat := Nat.pow 2 oneExponent

/-- The first magnitude that is too large for a finite number, in units, is this power of two. -/
def overflowExponent : Nat := 2098

/-- The first magnitude that is too large for a finite number, in units. -/
def overflowUnits : Nat := Nat.pow 2 overflowExponent

/-- The whole number nearest to `num / den`; a half goes to the even neighbour. -/
def roundHalfEven (num den : Nat) : Nat :=
  let quotient := num / den
  let twice := 2 * (num % den)
  if twice < den then quotient
  else if den < twice then quotient + 1
  else quotient + quotient % 2

/-- The number of trailing bits that a magnitude of this many units cannot keep. -/
def excessBits (units : Nat) : Nat := units.log2 + 1 - 53

/-- Whether a magnitude is that of a finite number: it is in range, and no bit of it is lost. -/
structure IsMagnitude (units : Nat) : Prop where
  lt_overflow : units < overflowUnits
  dvd : Nat.pow 2 (excessBits units) ∣ units

/-- The magnitude of at most 53 significant bits that is nearest to `num / den` units; a half goes to the
even significand. -/
def round (num den : Nat) : Nat :=
  let spacing := Nat.pow 2 (excessBits (num / den))
  roundHalfEven num (den * spacing) * spacing

theorem lt_two_pow_excessBits (units : Nat) : units < Nat.pow 2 (53 + excessBits units) := by
  refine Nat.lt_of_lt_of_le (Nat.lt_log2_self (n := units)) (Nat.pow_le_pow_right (by decide) ?_)
  unfold excessBits
  omega

theorem excessBits_le {units excess : Nat} (h : units < Nat.pow 2 (53 + excess)) :
    excessBits units ≤ excess := by
  unfold excessBits
  by_cases hzero : units = 0
  · simp [hzero]
  · have := (Nat.log2_lt hzero).2 h
    omega

theorem two_pow_excessBits_dvd (exponent : Nat) :
    Nat.pow 2 (excessBits (Nat.pow 2 exponent)) ∣ Nat.pow 2 exponent := by
  have hlog : (Nat.pow 2 exponent).log2 = exponent := Nat.log2_two_pow
  refine Nat.pow_dvd_pow 2 ?_
  unfold excessBits
  omega

theorem unitsPerOne_pos : 0 < unitsPerOne := by
  unfold unitsPerOne
  generalize oneExponent = exponent
  exact Nat.pow_pos (by decide)

theorem isMagnitude_zero : IsMagnitude 0 where
  lt_overflow := by
    unfold overflowUnits
    generalize overflowExponent = limit
    exact Nat.pow_pos (by decide)
  dvd := Nat.dvd_zero _

theorem isMagnitude_two_pow {exponent : Nat} (h : exponent < overflowExponent) :
    IsMagnitude (Nat.pow 2 exponent) where
  lt_overflow := by
    unfold overflowUnits
    generalize overflowExponent = limit at h ⊢
    exact Nat.pow_lt_pow_right (by decide) h
  dvd := two_pow_excessBits_dvd exponent

theorem isMagnitude_unitsPerOne : IsMagnitude unitsPerOne := by
  have h : oneExponent < overflowExponent := by decide
  unfold unitsPerOne
  generalize oneExponent = exponent at h ⊢
  exact isMagnitude_two_pow h

theorem roundHalfEven_le (num den : Nat) : roundHalfEven num den ≤ num / den + 1 := by
  unfold roundHalfEven
  dsimp only
  split
  · omega
  · split <;> omega

/-- The bits that rounding takes away stay away. -/
theorem dvd_round (num den : Nat) : Nat.pow 2 (excessBits (round num den)) ∣ round num den := by
  have hspacing : 0 < 2 ^ excessBits (num / den) := Nat.two_pow_pos _
  have hquotient : num / den / 2 ^ excessBits (num / den) < 2 ^ 53 := by
    rw [Nat.div_lt_iff_lt_mul hspacing, ← Nat.pow_add]
    exact lt_two_pow_excessBits (num / den)
  have hle : round num den ≤ 2 ^ (53 + excessBits (num / den)) := by
    rw [Nat.pow_add]
    refine Nat.mul_le_mul_right _ (Nat.le_trans (roundHalfEven_le _ _) ?_)
    rw [← Nat.div_div_eq_div_mul]
    exact hquotient
  rcases Nat.lt_or_eq_of_le hle with hlt | heq
  · exact Nat.dvd_trans (Nat.pow_dvd_pow 2 (excessBits_le hlt)) (Nat.dvd_mul_left _ _)
  · rw [heq]
    exact two_pow_excessBits_dvd _

end Double

/-- A double-precision number. The two zeros differ in their sign; there is one `nan`. -/
inductive Double where
  | nan
  | infinity (negative : Bool)
  | finite (negative : Bool) (units : Nat) (isMagnitude : Double.IsMagnitude units)
  deriving DecidableEq, Repr, Inhabited

namespace Double

def zero : Double := .finite false 0 isMagnitude_zero

def one : Double := .finite false unitsPerOne isMagnitude_unitsPerOne

/-- The double nearest to `num / den` units; a magnitude beyond the largest finite one becomes an
infinity. -/
def nearest (negative : Bool) (num den : Nat) : Double :=
  if h : round num den < overflowUnits then .finite negative (round num den) ⟨h, dvd_round num den⟩
  else .infinity negative

def signedUnits (negative : Bool) (units : Nat) : Int :=
  if negative then -(units : Int) else units

/-- The double nearest to a whole number. -/
def ofInt (n : Int) : Double := nearest (n < 0) (n.natAbs * unitsPerOne) 1

def negate : Double → Double
  | .nan => .nan
  | .infinity negative => .infinity !negative
  | .finite negative units h => .finite (!negative) units h

/-- The exact sum, rounded once. A sum of zero is negative only if both parts are. -/
def add : Double → Double → Double
  | .nan, _ | _, .nan => .nan
  | .infinity a, .infinity b => if a = b then .infinity a else .nan
  | .infinity a, .finite _ _ _ | .finite _ _ _, .infinity a => .infinity a
  | .finite a x _, .finite b y _ =>
      let sum := signedUnits a x + signedUnits b y
      if sum = 0 then .finite (a && b) 0 isMagnitude_zero else nearest (sum < 0) sum.natAbs 1

/-- Multiplies by a whole number and adds another, rounding once. -/
def scaleAdd (radix digit : Nat) : Double → Double
  | .finite false units _ => nearest false (units * radix + digit * unitsPerOne) 1
  | x => x

/-- The number has no sign. -/
inductive IsUnsigned : Double → Prop where
  | infinity : IsUnsigned (.infinity false)
  | finite {units : Nat} (h : IsMagnitude units) : IsUnsigned (.finite false units h)

theorem isUnsigned_zero : zero.IsUnsigned := .finite isMagnitude_zero

theorem isUnsigned_nearest (num den : Nat) : (nearest false num den).IsUnsigned := by
  unfold nearest
  split
  · exact .finite _
  · exact .infinity

theorem IsUnsigned.scaleAdd {x : Double} (h : x.IsUnsigned) (radix digit : Nat) :
    (x.scaleAdd radix digit).IsUnsigned := by
  cases h with
  | infinity => exact .infinity
  | finite => exact isUnsigned_nearest _ _

/-- The sixty-four bits of the interchange format. -/
def bits : Double → Nat
  | .nan => 0x7ff8000000000000
  | .infinity negative => (if negative then Nat.pow 2 63 else 0) + 0x7ff0000000000000
  | .finite negative units _ =>
      (if negative then Nat.pow 2 63 else 0) +
        if units < Nat.pow 2 52 then units
        else (units.log2 - 52) * Nat.pow 2 52 + units / Nat.pow 2 (units.log2 - 52)

end Double

end EnumInline
