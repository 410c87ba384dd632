import EnumInline.Double.Reading
import EnumInline.Proofs.Double.Shortest

/-!
Reading decimal digits. The double that a decimal numeral denotes is the one nearest to
its exact value, also where the number of its digits settles it.
-/

namespace EnumInline.Double

open Text

variable {digits : List Char}

theorem isAsciiDigit_eq_isDigit (c : Char) : isAsciiDigit c = c.isDigit := by
  rw [Bool.eq_iff_iff]
  simp only [isAsciiDigit, Char.isDigit, Bool.and_eq_true, decide_eq_true_eq]
  rfl

theorem wholeOfDigits_eq (digits : List Char) :
    wholeOfDigits digits = Nat.ofDigitChars 10 digits 0 := by
  rw [Nat.ofDigitChars_eq_foldl, wholeOfDigits]
  congr 1
  funext total c
  rw [Nat.mul_comm]

theorem wholeOfDigits_toDigits (n : Nat) : wholeOfDigits (Nat.toDigits 10 n) = n := by
  rw [wholeOfDigits_eq, Nat.ofDigitChars_ten_toDigits]

theorem wholeOfDigits_cons (c : Char) (digits : List Char) :
    wholeOfDigits (c :: digits) =
      10 ^ digits.length * (c.toNat - '0'.toNat) + wholeOfDigits digits := by
  rw [wholeOfDigits_eq, wholeOfDigits_eq, Nat.ofDigitChars_cons,
    Nat.ofDigitChars_eq_ofDigitChars_zero, Nat.mul_zero, Nat.zero_add]

theorem wholeOfDigits_zeros_append (count : Nat) (digits : List Char) :
    wholeOfDigits (List.replicate count '0' ++ digits) = wholeOfDigits digits := by
  rw [wholeOfDigits_eq, wholeOfDigits_eq, Nat.ofDigitChars_append,
    Nat.ofDigitChars_replicate_zero, Nat.mul_zero]

theorem wholeOfDigits_dropWhile (digits : List Char) :
    wholeOfDigits (digits.dropWhile (· == '0')) = wholeOfDigits digits := by
  induction digits with
  | nil => rfl
  | cons c rest ih =>
    rw [List.dropWhile_cons]
    split
    next hzero =>
      obtain rfl : c = '0' := by simpa using hzero
      rw [ih, wholeOfDigits_cons]
      simp
    next => rfl

theorem toNat_le_of_isAsciiDigit {c : Char} (h : isAsciiDigit c = true) :
    '0'.toNat ≤ c.toNat ∧ c.toNat ≤ '9'.toNat := by
  simpa [isAsciiDigit, Char.le_def, UInt32.le_iff_toNat_le] using h

theorem of_isAsciiDigit (holds : Char → Prop) (hall : ∀ n < 10, holds (Nat.digitChar n))
    {c : Char} (h : isAsciiDigit c = true) : holds c := by
  have hbounds := toNat_le_of_isAsciiDigit h
  simp only [Char.reduceToNat] at hbounds
  have hsame : Nat.digitChar (c.toNat - 48) = c := by
    rw [← Char.toNat_inj, Nat.toNat_digitChar_of_lt_ten (by omega)]
    omega
  rw [← hsame]
  exact hall _ (by omega)

theorem wholeOfDigits_lt (h : ∀ c ∈ digits, isAsciiDigit c = true) :
    wholeOfDigits digits < 10 ^ digits.length := by
  induction digits with
  | nil => decide
  | cons c rest ih =>
    have hrest := ih fun d hd => h d (List.mem_cons_of_mem c hd)
    have hc : c.toNat - '0'.toNat ≤ 9 := by
      have := toNat_le_of_isAsciiDigit (h c List.mem_cons_self)
      simp at this ⊢
      omega
    have hfirst := Nat.mul_le_mul_left (10 ^ rest.length) hc
    rw [wholeOfDigits_cons, List.length_cons, Nat.pow_succ]
    omega

theorem le_wholeOfDigits {c : Char} (hdigit : isAsciiDigit c = true) (hzero : c ≠ '0')
    (rest : List Char) : 10 ^ rest.length ≤ wholeOfDigits (c :: rest) := by
  have hc : 1 ≤ c.toNat - '0'.toNat := by
    have hle := (toNat_le_of_isAsciiDigit hdigit).1
    have hne : c.toNat ≠ '0'.toNat := fun heq => hzero (Char.toNat_inj.1 heq)
    omega
  have hfirst := Nat.mul_le_mul_left (10 ^ rest.length) hc
  rw [wholeOfDigits_cons]
  omega

theorem overflowUnits_le : overflowUnits ≤ 10 ^ 400 * unitsPerOne := by
  decide +kernel

theorem unitsPerOne_lt_ten_pow : 2 * unitsPerOne < 10 ^ 400 := by
  decide +kernel

theorem ten_pow_le_of_le {small large : Nat} (h : small ≤ large) : 10 ^ small ≤ 10 ^ large :=
  Nat.pow_le_pow_right (by decide) h

/-- Less than ten to the power of minus four hundred is zero. -/
theorem round_of_small {whole : Nat} {exponent : Int} {length : Nat}
    (hwhole : whole < 10 ^ length) (hsmall : length + exponent < -400) :
    round (scaledDecimal whole exponent) (scaledUnits 1 exponent) = 0 := by
  have hpower : 10 ^ length * 10 ^ 400 ≤ 10 ^ exponent.natAbs := by
    rw [← Nat.pow_add]
    exact ten_pow_le_of_le (by omega)
  unfold scaledDecimal scaledUnits
  rw [if_pos (by omega), if_pos (by omega), Nat.one_mul]
  apply round_of_lt
  calc 2 * (whole * unitsPerOne) = whole * (2 * unitsPerOne) := Nat.mul_left_comm _ _ _
    _ < 10 ^ length * 10 ^ 400 :=
        Nat.mul_lt_mul_of_lt_of_le hwhole (Nat.le_of_lt unitsPerOne_lt_ten_pow)
          (Nat.zero_lt_of_lt unitsPerOne_lt_ten_pow)
    _ ≤ _ := hpower

/-- Ten to the power of four hundred is too large for a finite number. -/
theorem overflow_of_large {whole : Nat} {exponent : Int} {length : Nat}
    (hwhole : 10 ^ length ≤ whole) (hlarge : 400 ≤ length + exponent) :
    overflowUnits ≤ scaledDecimal whole exponent / scaledUnits 1 exponent := by
  rw [Nat.le_div_iff_mul_le (scaledUnits_pos exponent)]
  unfold scaledDecimal scaledUnits
  simp only [Nat.pow_eq]
  split
  next hneg =>
    have hpower : 10 ^ 400 * 10 ^ exponent.natAbs ≤ whole := by
      rw [← Nat.pow_add]
      exact Nat.le_trans (ten_pow_le_of_le (by omega)) hwhole
    calc overflowUnits * (1 * 10 ^ exponent.natAbs)
        ≤ 10 ^ 400 * unitsPerOne * 10 ^ exponent.natAbs := by
          rw [Nat.one_mul]
          exact Nat.mul_le_mul_right _ overflowUnits_le
      _ = 10 ^ 400 * 10 ^ exponent.natAbs * unitsPerOne := Nat.mul_right_comm _ _ _
      _ ≤ _ := Nat.mul_le_mul_right _ hpower
  next hnonneg =>
    have hpower : 10 ^ 400 ≤ whole * 10 ^ exponent.natAbs := by
      refine Nat.le_trans ?_ (Nat.mul_le_mul_right _ hwhole)
      rw [← Nat.pow_add]
      exact ten_pow_le_of_le (by omega)
    rw [Nat.mul_one]
    exact Nat.le_trans overflowUnits_le (Nat.mul_le_mul_right _ hpower)

/-- A decimal numeral denotes the double nearest to its value. -/
theorem ofDecimal_eq_nearest (negative : Bool) (exponent : Int)
    (h : ∀ c ∈ digits, isAsciiDigit c = true) :
    ofDecimal negative digits exponent =
      nearest negative (scaledDecimal (wholeOfDigits digits) exponent)
        (scaledUnits 1 exponent) := by
  have hsignificant : ∀ c ∈ digits.dropWhile (· == '0'), isAsciiDigit c = true :=
    fun c hc => h c (List.dropWhile_subset _ hc)
  have hhead : ∀ c, (digits.dropWhile (· == '0')).head? = some c → c ≠ '0' := by
    intro c hc
    simpa [hc] using List.head?_dropWhile_not (· == '0') digits
  unfold ofDecimal
  dsimp only
  rw [← wholeOfDigits_dropWhile digits]
  generalize digits.dropWhile (· == '0') = significant at hsignificant hhead ⊢
  split
  next hzero =>
    symm
    apply nearest_of_round_zero
    simp only [Bool.or_eq_true, List.isEmpty_iff, decide_eq_true_eq] at hzero
    rcases hzero with rfl | hsmall
    · rw [show wholeOfDigits [] = 0 from rfl, scaledDecimal_eq, Nat.zero_mul, round_zero]
    · exact round_of_small (wholeOfDigits_lt hsignificant) hsmall
  next hzero =>
    split
    next hlarge =>
      symm
      apply nearest_of_overflow
      cases significant with
      | nil => simp at hzero
      | cons c rest =>
        refine overflow_of_large (le_wholeOfDigits (hsignificant c List.mem_cons_self)
          (hhead c rfl) rest) ?_
        simp at hlarge
        omega
    next =>
      unfold scaledDecimal scaledUnits
      split
      · rw [Nat.one_mul]
      · rw [Nat.mul_right_comm]

end EnumInline.Double
