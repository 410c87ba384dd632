import EnumInline.Double.Text
import EnumInline.Proofs.Double.Digits

/-!
The text of a positive number is a numeral that denotes it, however it is laid out.
-/

namespace EnumInline.Double

open Text

/-- The parts of a numeral: the digits before the point and behind it, and
the exponent. -/
structure Layout where
  whole : List Char
  fraction : List Char
  exponent : Int

namespace Layout

def fractionText (layout : Layout) : List Char :=
  if layout.fraction.isEmpty then [] else '.' :: layout.fraction

def exponentText (layout : Layout) : List Char :=
  if layout.exponent = 0 then [] else 'e' :: (toString layout.exponent).toList

def text (layout : Layout) : List Char :=
  layout.whole ++ layout.fractionText ++ layout.exponentText

/-- The number that the parts denote. -/
def value (layout : Layout) : Double :=
  ofParts false layout.whole layout.fraction layout.exponent

/-- Parts of a numeral that is well-formed. -/
structure IsNumeral (layout : Layout) : Prop where
  whole_ne_nil : layout.whole ≠ []
  isDigit : ∀ c ∈ layout.whole ++ layout.fraction, isAsciiDigit c = true
  leading : layout.whole.head? = some '0' → layout.whole = ['0']

theorem IsNumeral.exists_digit {layout : Layout} (h : layout.IsNumeral) :
    ∃ c rest, layout.text = c :: rest ∧ isAsciiDigit c = true := by
  cases hwhole : layout.whole with
  | nil => exact absurd hwhole h.whole_ne_nil
  | cons c rest =>
    refine ⟨c, rest ++ (layout.fractionText ++ layout.exponentText), ?_,
      h.isDigit c (by simp [hwhole])⟩
    simp [text, hwhole]

theorem isNumeral_zero : IsNumeral ⟨['0'], [], 0⟩ :=
  ⟨List.cons_ne_nil _ _, List.forall_mem_singleton.2 rfl, fun _ => rfl⟩

/-- The parts denote the decimal that their digits make. -/
theorem value_eq_nearest {layout : Layout} {d : Decimal} (h : layout.IsNumeral)
    (hdigits : wholeOfDigits (layout.whole ++ layout.fraction) = d.digits)
    (hexponent : layout.exponent - layout.fraction.length = d.exponent) :
    layout.value = d.nearest := by
  unfold value ofParts
  rw [ofDecimal_eq_nearest false _ h.isDigit, hdigits, hexponent]
  rfl

end Layout

theorem isAsciiDigit_of_mem_toDigits {n : Nat} {c : Char} (h : c ∈ Nat.toDigits 10 n) :
    isAsciiDigit c = true := by
  rw [isAsciiDigit_eq_isDigit]
  exact Nat.isDigit_of_mem_toDigits (by decide) (by decide) h

theorem head?_toDigits {n : Nat} (hn : 0 < n) : (Nat.toDigits 10 n).head? ≠ some '0' := by
  induction n using Nat.strongRecOn with
  | ind n ih =>
    rw [Nat.toDigits_eq_if (by decide)]
    split
    next hlt =>
      simp
      omega
    next hge =>
      have hhead := ih (n / 10) (by omega) (by omega)
      rw [List.head?_append]
      cases hdigits : (Nat.toDigits 10 (n / 10)).head? with
      | none => exact absurd (List.head?_eq_none_iff.1 hdigits) Nat.toDigits_ne_nil
      | some c =>
        rw [hdigits] at hhead
        simpa using hhead

/-- A whole number is written in digits, behind a sign if it has one. -/
theorem toList_toString_int (n : Int) :
    ∃ sign magnitude, (toString n).toList = sign ++ Nat.toDigits 10 magnitude ∧
      (sign = [] ∨ sign = ['-']) := by
  rw [Int.toString_eq_repr, Int.repr_eq_if]
  split
  · exact ⟨[], _, Nat.toList_repr, Or.inl rfl⟩
  · refine ⟨['-'], (-n).toNat, ?_, Or.inr rfl⟩
    rw [String.toList_append, Nat.toList_repr]
    rfl

/-- A text is a numeral that denotes what a decimal does. -/
def IsNumeralOf (d : Decimal) (text : List Char) : Prop :=
  ∃ layout : Layout, text = layout.text ∧ layout.IsNumeral ∧ layout.value = d.nearest

section Layouts

variable {d : Decimal} (hd : 0 < d.digits)

include hd

/-- A whole number in plain digits. -/
theorem isNumeralOf_whole (hexponent : 0 ≤ d.exponent) :
    IsNumeralOf d (Nat.toDigits 10 (d.digits * Nat.pow 10 d.exponent.toNat)) := by
  have hpos : 0 < d.digits * Nat.pow 10 d.exponent.toNat := Nat.mul_pos hd (Nat.pow_pos (by decide))
  have hnumeral : Layout.IsNumeral ⟨Nat.toDigits 10 (d.digits * Nat.pow 10 d.exponent.toNat), [], 0⟩ := by
    refine ⟨Nat.toDigits_ne_nil, fun c hc => ?_, fun hhead => ?_⟩
    · rw [List.append_nil] at hc
      exact isAsciiDigit_of_mem_toDigits hc
    · exact absurd hhead (head?_toDigits hpos)
  have hvalue := Layout.value_eq_nearest (d := ⟨d.digits * Nat.pow 10 d.exponent.toNat, 0⟩) hnumeral
    (by rw [List.append_nil, wholeOfDigits_toDigits]) (by simp)
  have hnearest : (⟨d.digits * Nat.pow 10 d.exponent.toNat, 0⟩ : Decimal).nearest = d.nearest := by
    have hnatAbs : d.exponent.natAbs = d.exponent.toNat := by omega
    unfold Decimal.nearest scaledDecimal scaledUnits
    dsimp only
    rw [if_neg (by decide), if_neg (by decide), if_neg (by omega), if_neg (by omega), hnatAbs,
      Int.natAbs_zero, Nat.pow_eq, Nat.pow_eq, Nat.pow_zero, Nat.mul_one]
  refine ⟨_, ?_, hnumeral, hvalue.trans hnearest⟩
  simp [Layout.text, Layout.fractionText, Layout.exponentText]

/-- A point in front of the digits, with zeros behind it, or a point among them. -/
theorem isNumeralOf_plainText (hexponent : d.exponent < 0) :
    IsNumeralOf d
      (plainText (Nat.toDigits 10 d.digits) ((Nat.toDigits 10 d.digits).length + d.exponent)) := by
  have hdigits (c : Char) (hc : c ∈ Nat.toDigits 10 d.digits) : isAsciiDigit c = true :=
    isAsciiDigit_of_mem_toDigits hc
  have hvalue := wholeOfDigits_toDigits d.digits
  have hhead := head?_toDigits hd
  have hne : Nat.toDigits 10 d.digits ≠ [] := Nat.toDigits_ne_nil
  generalize Nat.toDigits 10 d.digits = digits at *
  unfold plainText
  split
  next hpoint =>
    have hnumeral : Layout.IsNumeral
        ⟨['0'], zeros (digits.length + d.exponent).natAbs ++ digits, 0⟩ := by
      refine ⟨by simp, fun c hc => ?_, fun _ => rfl⟩
      simp only [List.cons_append, List.nil_append, List.mem_cons, List.mem_append] at hc
      rcases hc with rfl | hzero | hdigit
      · decide
      · rw [List.eq_of_mem_replicate hzero]
        decide
      · exact hdigits c hdigit
    refine ⟨_, ?_, hnumeral, Layout.value_eq_nearest hnumeral ?_ ?_⟩
    · simp [Layout.text, Layout.fractionText, Layout.exponentText, hne]
    · rw [← List.append_assoc]
      exact (wholeOfDigits_zeros_append (_ + 1) digits).trans hvalue
    · change (0 : Int) - (zeros _ ++ digits).length = d.exponent
      rw [List.length_append, zeros, List.length_replicate]
      omega
  next hpoint =>
    have hnumeral : Layout.IsNumeral
        ⟨digits.take (digits.length + d.exponent).natAbs,
          digits.drop (digits.length + d.exponent).natAbs, 0⟩ := by
      refine ⟨?_, fun c hc => ?_, fun hzero => ?_⟩
      · simp only [ne_eq, List.take_eq_nil_iff, hne, or_false]
        omega
      · rw [List.take_append_drop] at hc
        exact hdigits c hc
      · rw [List.head?_take, if_neg (by omega)] at hzero
        exact absurd hzero hhead
    refine ⟨_, ?_, hnumeral, Layout.value_eq_nearest hnumeral ?_ ?_⟩
    · simp [Layout.text, Layout.fractionText, Layout.exponentText]
      omega
    · rw [List.take_append_drop]
      exact hvalue
    · change (0 : Int) - (digits.drop _).length = d.exponent
      rw [List.length_drop]
      omega

theorem isNumeralOf_exponentText (hpoint : (Nat.toDigits 10 d.digits).length + d.exponent ≠ 1) :
    IsNumeralOf d
      (exponentText (Nat.toDigits 10 d.digits) ((Nat.toDigits 10 d.digits).length + d.exponent)) := by
  have hdigits (c : Char) (hc : c ∈ Nat.toDigits 10 d.digits) : isAsciiDigit c = true :=
    isAsciiDigit_of_mem_toDigits hc
  have hvalue := wholeOfDigits_toDigits d.digits
  have hhead := head?_toDigits hd
  have hlength : 0 < (Nat.toDigits 10 d.digits).length := Nat.length_toDigits_pos
  generalize Nat.toDigits 10 d.digits = digits at *
  have hnumeral : Layout.IsNumeral
      ⟨digits.take 1, digits.drop 1, digits.length + d.exponent - 1⟩ := by
    refine ⟨?_, fun c hc => ?_, fun hzero => ?_⟩
    · rw [ne_eq, ← List.length_eq_zero_iff, List.length_take]
      omega
    · rw [List.take_append_drop] at hc
      exact hdigits c hc
    · rw [List.head?_take, if_neg (by decide)] at hzero
      exact absurd hzero hhead
  refine ⟨_, ?_, hnumeral, Layout.value_eq_nearest hnumeral ?_ ?_⟩
  · have hexponent : (digits.length : Int) + d.exponent - 1 ≠ 0 := by omega
    simp only [exponentText, Layout.text, Layout.fractionText, Layout.exponentText,
      if_neg hexponent, List.isEmpty_iff, List.drop_eq_nil_iff]
  · rw [List.take_append_drop]
    exact hvalue
  · change digits.length + d.exponent - 1 - (digits.drop 1).length = d.exponent
    rw [List.length_drop]
    omega

end Layouts

variable {units : Nat}

theorem text_finite (negative : Bool) (units : Nat) (hmagnitude : IsMagnitude units) :
    text (.finite negative units hmagnitude) =
      if units = 0 then ['0']
      else if negative then '-' :: magnitudeText units
      else magnitudeText units := by
  unfold text
  rfl

/-- A number of at least `10 ^ 21` has more than sixteen digits before the point. -/
theorem lt_point_shortest (hunits : 0 < units) (hmagnitude : IsMagnitude units)
    (hlarge : plainLimit ≤ units) (hexponent : 0 ≤ (shortest units).exponent) :
    16 < ((Nat.toDigits 10 (shortest units).digits).length : Int) +
      (shortest units).exponent := by
  have hround := round_of_nearest (nearest_shortest hunits hmagnitude)
  apply Int.not_le.1
  intro hpoint
  generalize shortest units = d at hround hexponent hpoint
  have hdigits : d.digits * 10 ^ d.exponent.natAbs < 2 ^ 54 := by
    have hlength := lt_ten_pow_decimalLength d.digits
    have hpower : 0 < 10 ^ d.exponent.natAbs := Nat.pow_pos (by decide)
    calc d.digits * 10 ^ d.exponent.natAbs
        < 10 ^ decimalLength d.digits * 10 ^ d.exponent.natAbs :=
          Nat.mul_lt_mul_of_pos_right hlength hpower
      _ = 10 ^ (decimalLength d.digits + d.exponent.natAbs) := (Nat.pow_add _ _ _).symm
      _ ≤ 10 ^ 16 := by
          refine ten_pow_le_of_le ?_
          unfold decimalLength
          omega
      _ ≤ 2 ^ 54 := by decide
  have hsmall : scaledDecimal d.digits d.exponent / scaledUnits 1 d.exponent <
      2 ^ (54 + oneExponent) := by
    unfold scaledDecimal scaledUnits
    rw [if_neg (by omega), if_neg (by omega), Nat.div_one, Nat.pow_add,
      two_pow_oneExponent]
    exact Nat.mul_lt_mul_of_pos_right hdigits unitsPerOne_pos
  have hle : units ≤ 2 ^ 54 * unitsPerOne := by
    rw [← two_pow_oneExponent, ← Nat.pow_add, ← hround]
    exact round_le hsmall
  have hlimit : 2 ^ 54 * unitsPerOne < plainLimit :=
    Nat.mul_lt_mul_of_pos_right (by decide) unitsPerOne_pos
  omega

/-- The text of a positive number is a numeral that denotes it. -/
theorem isNumeralOf_magnitudeText (hunits : 0 < units) (hmagnitude : IsMagnitude units) :
    IsNumeralOf (shortest units) (magnitudeText units) := by
  have hdigits := digits_shortest_pos hunits hmagnitude
  unfold magnitudeText
  dsimp only
  split
  next hwhole =>
    exact isNumeralOf_whole hdigits
      (exponent_shortest_nonneg hunits (Nat.dvd_of_mod_eq_zero hwhole.1))
  next hother =>
    unfold fractionalText
    dsimp only
    split
    next hpoint =>
      refine isNumeralOf_plainText hdigits (Int.not_le.1 fun hexponent => ?_)
      by_cases hdvd : unitsPerOne ∣ units
      · have hlarge : plainLimit ≤ units :=
          Nat.not_lt.1 fun hlt => hother ⟨Nat.mod_eq_zero_of_dvd hdvd, hlt⟩
        have := lt_point_shortest hunits hmagnitude hlarge hexponent
        omega
      · have := exponent_shortest_neg hunits hmagnitude hdvd
        omega
    next hpoint => exact isNumeralOf_exponentText hdigits (by omega)

/-- The text of a finite number is a numeral, behind a sign if the number is negative. -/
theorem exists_layout (negative : Bool) (units : Nat) (hmagnitude : IsMagnitude units) :
    ∃ (sign : List Char) (layout : Layout), layout.IsNumeral ∧
      text (.finite negative units hmagnitude) = sign ++ layout.text ∧
      (sign = [] ∨ negative = true ∧ sign = ['-']) := by
  rw [text_finite]
  split
  next => exact ⟨[], _, Layout.isNumeral_zero, rfl, Or.inl rfl⟩
  next hunits =>
    obtain ⟨layout, htext, hnumeral, -⟩ :=
      isNumeralOf_magnitudeText (Nat.pos_of_ne_zero hunits) hmagnitude
    rw [htext]
    cases negative with
    | false => exact ⟨[], layout, hnumeral, rfl, Or.inl rfl⟩
    | true => exact ⟨['-'], layout, hnumeral, rfl, Or.inr ⟨rfl, rfl⟩⟩

/-- The text of a positive number begins with a digit. -/
theorem exists_head?_magnitudeText (hunits : 0 < units) (hmagnitude : IsMagnitude units) :
    ∃ c, (magnitudeText units).head? = some c ∧ isAsciiDigit c = true := by
  obtain ⟨layout, htext, hnumeral, -⟩ := isNumeralOf_magnitudeText hunits hmagnitude
  obtain ⟨c, rest, hhead, hdigit⟩ := hnumeral.exists_digit
  exact ⟨c, by rw [htext, hhead, List.head?_cons], hdigit⟩

end EnumInline.Double
