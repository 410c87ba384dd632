import EnumInline.Proofs.Double.Text

/-!
Whole numbers among the doubles. Below `2 ^ 53` every one of them is a double, so that counting
on from one leads to the next, and its text is the decimal spelling of the number.
-/

namespace EnumInline.Double

variable {x : Double} {k : Int} {m : Nat}

/-- The double is a whole number, exactly. Zero has two forms. -/
def IsWhole (x : Double) (k : Int) : Prop :=
  ∃ negative units h, x = .finite negative units h ∧
    signedUnits negative units = k * (unitsPerOne : Int)

theorem signedUnits_zero (negative : Bool) : signedUnits negative 0 = 0 := by
  cases negative <;> rfl

theorem signedUnits_mul (negative : Bool) (m units : Nat) :
    signedUnits negative (m * units) = signedUnits negative m * units := by
  unfold signedUnits
  split
  · rw [Int.natCast_mul, Int.neg_mul]
  · rw [Int.natCast_mul]

theorem isWhole_zero : zero.IsWhole 0 :=
  ⟨false, 0, isMagnitude_zero, rfl, by rw [signedUnits_zero, Int.zero_mul]⟩

theorem IsWhole.exists_natAbs (h : x.IsWhole k) :
    ∃ negative hmagnitude, x = .finite negative (k.natAbs * unitsPerOne) hmagnitude ∧
      signedUnits negative k.natAbs = k := by
  obtain ⟨negative, units, hmagnitude, rfl, hsigned⟩ := h
  have hunits : units = k.natAbs * unitsPerOne := by
    have hnatAbs := congrArg Int.natAbs hsigned
    rw [Int.natAbs_mul, Int.natAbs_natCast] at hnatAbs
    rw [← hnatAbs]
    unfold signedUnits
    split <;> omega
  have hsame : signedUnits negative k.natAbs = k := by
    have hone : (unitsPerOne : Int) ≠ 0 := Int.natCast_ne_zero.2 (Nat.ne_of_gt unitsPerOne_pos)
    apply Int.eq_of_mul_eq_mul_right hone
    rw [← hsigned, hunits, signedUnits_mul]
  generalize k.natAbs * unitsPerOne = n at hunits ⊢
  subst hunits
  exact ⟨negative, hmagnitude, rfl, hsame⟩

theorem lt_two_pow_of_lt (h : m < 2 ^ 53) : m * unitsPerOne < 2 ^ (53 + oneExponent) := by
  rw [Nat.pow_add, two_pow_oneExponent]
  exact Nat.mul_lt_mul_of_pos_right h unitsPerOne_pos

theorem isMagnitude_mul (h : m < 2 ^ 53) : IsMagnitude (m * unitsPerOne) where
  lt_overflow := by
    have hbelow := lt_two_pow_of_lt h
    have hlt : 53 + oneExponent < overflowExponent := by decide
    unfold overflowUnits
    generalize 53 + oneExponent = small at hbelow hlt
    generalize overflowExponent = limit at hlt ⊢
    exact Nat.lt_trans hbelow (Nat.pow_lt_pow_right (by decide) hlt)
  dvd := by
    have hle {excess : Nat} (hlt : m * unitsPerOne < 2 ^ (53 + excess)) :
        excessBits (m * unitsPerOne) ≤ excess := excessBits_le hlt
    have hexcess : excessBits (m * unitsPerOne) ≤ oneExponent := hle (lt_two_pow_of_lt h)
    refine Nat.dvd_trans ?_ (Nat.dvd_mul_left _ m)
    generalize excessBits (m * unitsPerOne) = excess at hexcess ⊢
    unfold unitsPerOne
    generalize oneExponent = exponent at hexcess ⊢
    exact Nat.pow_dvd_pow 2 hexcess

theorem IsMagnitude.round {units : Nat} (h : IsMagnitude units) : round units 1 = units := by
  have hspacing : 0 < 2 ^ excessBits units := Nat.two_pow_pos _
  obtain ⟨significand, hunits, -, -⟩ := h.exists_significand
  unfold Double.round
  dsimp only
  rw [Nat.div_one, Nat.one_mul, Nat.pow_eq]
  have hround : roundHalfEven units (2 ^ excessBits units) = significand := by
    generalize 2 ^ excessBits units = spacing at hspacing hunits ⊢
    rw [hunits, roundHalfEven_of_dvd hspacing]
  rw [hround]
  exact hunits.symm

theorem IsMagnitude.nearest {units : Nat} (h : IsMagnitude units) (negative : Bool) :
    nearest negative units 1 = .finite negative units h := by
  have hlt : Double.round units 1 < overflowUnits := by
    rw [h.round]
    exact h.lt_overflow
  unfold Double.nearest
  rw [dif_pos hlt]
  simp only [h.round]

/-- What is rounded to a whole number below `2 ^ 53` is that number, if it is whole itself. -/
theorem eq_of_round_mul {n : Nat} (hm : m < 2 ^ 53)
    (h : round (n * unitsPerOne) 1 = m * unitsPerOne) : n = m := by
  have hn : n < 2 ^ 53 := by
    apply Nat.lt_of_not_le
    intro hle
    have hlarge : 2 ^ (53 + oneExponent) ≤ n * unitsPerOne / 1 := by
      rw [Nat.div_one, Nat.pow_add, two_pow_oneExponent]
      exact Nat.mul_le_mul_right _ hle
    have hround := le_round hlarge
    rw [h] at hround
    exact Nat.not_lt.2 hround (lt_two_pow_of_lt hm)
  rw [(isMagnitude_mul hn).round] at h
  exact Nat.eq_of_mul_eq_mul_right unitsPerOne_pos h

/-- The sum of whole numbers is exact if it is below `2 ^ 53`. -/
theorem IsWhole.add {y : Double} {l : Int} (hx : x.IsWhole k) (hy : y.IsWhole l)
    (hsmall : (k + l).natAbs < 2 ^ 53) : (x.add y).IsWhole (k + l) := by
  obtain ⟨negative, units, hmagnitude, rfl, hunits⟩ := hx
  obtain ⟨negative', units', hmagnitude', rfl, hunits'⟩ := hy
  have hsum : signedUnits negative units + signedUnits negative' units' =
      (k + l) * (unitsPerOne : Int) := by
    rw [hunits, hunits', Int.add_mul]
  change IsWhole (if signedUnits negative units + signedUnits negative' units' = 0 then
    .finite (negative && negative') 0 isMagnitude_zero
    else nearest (signedUnits negative units + signedUnits negative' units' < 0)
      (signedUnits negative units + signedUnits negative' units').natAbs 1) (k + l)
  rw [hsum]
  split
  case isTrue hzero => exact ⟨_, 0, isMagnitude_zero, rfl, by rw [signedUnits_zero, hzero]⟩
  case isFalse =>
    have hnatAbs : ((k + l) * (unitsPerOne : Int)).natAbs = (k + l).natAbs * unitsPerOne := by
      rw [Int.natAbs_mul, Int.natAbs_natCast]
    rw [hnatAbs, (isMagnitude_mul hsmall).nearest]
    refine ⟨_, _, _, rfl, ?_⟩
    rw [← hnatAbs]
    unfold signedUnits
    split
    next hnegative =>
      have hnegative := of_decide_eq_true hnegative
      omega
    next hnegative =>
      rw [decide_eq_true_eq] at hnegative
      omega

theorem isWhole_one : one.IsWhole 1 :=
  ⟨false, unitsPerOne, isMagnitude_unitsPerOne, rfl, (Int.one_mul _).symm⟩

/-- Counting on from a whole number below `2 ^ 53` is exact. -/
theorem IsWhole.add_one (h : x.IsWhole k) (hk : k.natAbs + 1 < 2 ^ 53) :
    (x.add .one).IsWhole (k + 1) :=
  h.add isWhole_one (by omega)

theorem magnitudeText_mul (hpos : 0 < m) (hm : m < 2 ^ 53) :
    magnitudeText (m * unitsPerOne) = Nat.toDigits 10 m := by
  have hunits : 0 < m * unitsPerOne := Nat.mul_pos hpos unitsPerOne_pos
  have hexponent := exponent_shortest_nonneg hunits (Nat.dvd_mul_left unitsPerOne m)
  have hround := round_of_nearest (nearest_shortest hunits (isMagnitude_mul hm))
  have hplain : m * unitsPerOne < plainLimit :=
    Nat.mul_lt_mul_of_pos_right (Nat.lt_trans hm (by decide)) unitsPerOne_pos
  unfold magnitudeText
  dsimp only
  rw [if_pos ⟨Nat.mul_mod_left _ _, hplain⟩]
  generalize shortest (m * unitsPerOne) = d at hexponent hround ⊢
  have hnatAbs : d.exponent.natAbs = d.exponent.toNat := by omega
  unfold scaledDecimal scaledUnits at hround
  rw [if_neg (by omega), if_neg (by omega), hnatAbs] at hround
  rw [eq_of_round_mul hm hround]

/-- The text of a whole number below `2 ^ 53` is its decimal spelling. -/
theorem IsWhole.text (h : x.IsWhole k) (hk : k.natAbs < 2 ^ 53) :
    x.text = (toString k).toList := by
  obtain ⟨negative, hmagnitude, rfl, hsigned⟩ := h.exists_natAbs
  rw [text_finite, Int.toString_eq_repr, Int.repr_eq_if]
  by_cases hzero : k = 0
  · subst hzero
    simp
  have hpos : 0 < k.natAbs := Int.natAbs_pos.2 hzero
  have hne : k.natAbs * unitsPerOne ≠ 0 := Nat.ne_of_gt (Nat.mul_pos hpos unitsPerOne_pos)
  rw [if_neg hne, magnitudeText_mul hpos hk]
  cases negative with
  | false =>
    have hnonneg : (k.natAbs : Int) = k := hsigned
    have hnatAbs : k.toNat = k.natAbs := by omega
    rw [if_neg Bool.false_ne_true, if_pos (by omega), hnatAbs, Nat.toList_repr]
  | true =>
    have hneg : -(k.natAbs : Int) = k := hsigned
    have hnatAbs : (-k).toNat = k.natAbs := by omega
    rw [if_pos rfl, if_neg (by omega), hnatAbs, String.toList_append, Nat.toList_repr]
    rfl

end EnumInline.Double
