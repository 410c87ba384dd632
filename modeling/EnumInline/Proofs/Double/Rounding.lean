import EnumInline.Double.Shortest
import Mathlib.Tactic.Linarith
import Mathlib.Tactic.Ring

/-!
Rounding to a double. Each magnitude has an interval around it whose ratios all round
to it: half the way to its neighbours, the ends included if its significand is even.
-/

namespace EnumInline.Double

variable {units num den : Nat}

/-- A ratio rounds to the whole number from which it is at most a half away, and to an
odd one only if it is less. -/
theorem roundHalfEven_eq {n : Nat} (hden : 0 < den) (hlow : 2 * (n * den) ≤ 2 * num + den)
    (hhigh : 2 * num ≤ 2 * (n * den) + den)
    (hodd : n % 2 = 1 → 2 * (n * den) < 2 * num + den ∧ 2 * num < 2 * (n * den) + den) :
    roundHalfEven num den = n := by
  have hdivision : num = num / den * den + num % den := (Nat.div_add_mod' num den).symm
  have hremainder : num % den < den := Nat.mod_lt num hden
  unfold roundHalfEven
  generalize num / den = quotient at hdivision ⊢
  generalize num % den = remainder at hdivision hremainder ⊢
  dsimp only
  -- The quotient is the number itself or the one before it.
  have hle : n ≤ quotient + 1 := by
    apply Nat.le_of_lt_succ
    apply Nat.lt_of_mul_lt_mul_right (a := den)
    rw [Nat.succ_mul, Nat.succ_mul]
    omega
  have hge : quotient ≤ n := by
    apply Nat.le_of_lt_succ
    apply Nat.lt_of_mul_lt_mul_right (a := den)
    rw [Nat.succ_mul]
    omega
  obtain rfl | rfl : n = quotient ∨ n = quotient + 1 := by omega
  · split
    · rfl
    · split <;> omega
  · simp only [Nat.add_one_mul] at hlow hhigh hodd
    split
    · omega
    · split <;> omega

theorem div_le_roundHalfEven (num den : Nat) : num / den ≤ roundHalfEven num den := by
  unfold roundHalfEven
  dsimp only
  split
  · omega
  · split <;> omega

theorem roundHalfEven_of_dvd {n : Nat} (hden : 0 < den) :
    roundHalfEven (n * den) den = n := by
  refine roundHalfEven_eq hden ?_ ?_ fun _ => ?_ <;> omega

/-- Only the ratio counts. -/
theorem roundHalfEven_mul {factor : Nat} (hfactor : 0 < factor) :
    roundHalfEven (factor * num) (factor * den) = roundHalfEven num den := by
  have hcompare (x y : Nat) : factor * x < factor * y ↔ x < y :=
    Nat.mul_lt_mul_left hfactor
  unfold roundHalfEven
  simp only [Nat.mul_div_mul_left _ _ hfactor, Nat.mul_mod_mul_left, Nat.mul_left_comm 2 factor,
    hcompare]

theorem two_pow_oneExponent : 2 ^ oneExponent = unitsPerOne := by
  unfold unitsPerOne
  generalize oneExponent = exponent
  rfl

theorem excessBits_eq {excess : Nat} (hlow : excess = 0 ∨ 2 ^ (52 + excess) ≤ units)
    (hhigh : units < 2 ^ (53 + excess)) : excessBits units = excess := by
  apply Nat.le_antisymm (excessBits_le hhigh)
  rcases hlow with rfl | hlow
  · exact Nat.zero_le _
  · have hlog : 52 + excess ≤ units.log2 := by
      rw [Nat.le_log2 (Nat.ne_of_gt (Nat.lt_of_lt_of_le (Nat.two_pow_pos _) hlow))]
      exact hlow
    unfold excessBits
    omega

theorem two_pow_le_of_excessBits (h : 0 < excessBits units) :
    2 ^ (52 + excessBits units) ≤ units := by
  unfold excessBits at h ⊢
  have hne : units ≠ 0 := by
    rintro rfl
    simp at h
  rw [← Nat.le_log2 hne]
  omega

theorem round_mul {factor : Nat} (hfactor : 0 < factor) :
    round (factor * num) (factor * den) = round num den := by
  unfold round
  rw [Nat.mul_div_mul_left _ _ hfactor]
  dsimp only
  rw [Nat.mul_assoc, roundHalfEven_mul hfactor]

theorem nearest_mul {factor : Nat} (hfactor : 0 < factor) (negative : Bool) :
    nearest negative (factor * num) (factor * den) = nearest negative num den := by
  simp only [nearest, round_mul hfactor]

/-- What is less than a half rounds to zero. -/
theorem round_of_lt (h : 2 * num < den) : round num den = 0 := by
  have hquotient : num / den = 0 := Nat.div_eq_of_lt (by omega)
  unfold round
  dsimp only
  rw [hquotient, roundHalfEven_eq (n := 0)]
  · exact Nat.zero_mul _
  · exact Nat.mul_pos (by omega) (Nat.pow_pos (by decide))
  · omega
  · have hone : den ≤ den * Nat.pow 2 (excessBits 0) :=
      Nat.le_mul_of_pos_right den (Nat.two_pow_pos _)
    omega
  · intro hodd
    simp at hodd

theorem round_zero (den : Nat) : round 0 den = 0 := by
  simp [round, roundHalfEven]

theorem round_of_nearest {negative sign : Bool} {h : IsMagnitude units}
    (hnearest : nearest negative num den = .finite sign units h) : round num den = units := by
  unfold nearest at hnearest
  split at hnearest
  · cases hnearest
    rfl
  · cases hnearest

theorem nearest_of_round_zero (negative : Bool) (h : round num den = 0) :
    nearest negative num den = .finite negative 0 isMagnitude_zero := by
  unfold nearest
  simp only [h, isMagnitude_zero.lt_overflow, dite_true]

/-- Rounding does not step over a power of two. -/
theorem le_round {exponent : Nat} (h : 2 ^ exponent ≤ num / den) :
    2 ^ exponent ≤ round num den := by
  have hfloor : num / den / 2 ^ excessBits (num / den) * 2 ^ excessBits (num / den) ≤
      round num den := by
    refine Nat.mul_le_mul_right _ ?_
    rw [Nat.div_div_eq_div_mul]
    exact div_le_roundHalfEven _ _
  refine Nat.le_trans ?_ hfloor
  rcases Nat.lt_or_ge exponent (excessBits (num / den)) with hlt | hle
  · have hpos : 0 < excessBits (num / den) := Nat.lt_of_le_of_lt (Nat.zero_le _) hlt
    have hbig := two_pow_le_of_excessBits hpos
    have hone : 1 ≤ num / den / 2 ^ excessBits (num / den) := by
      rw [Nat.le_div_iff_mul_le (Nat.two_pow_pos _), Nat.one_mul]
      exact Nat.le_trans (Nat.pow_le_pow_right (by decide) (by omega)) hbig
    calc 2 ^ exponent ≤ 1 * 2 ^ excessBits (num / den) := by
          rw [Nat.one_mul]
          exact Nat.pow_le_pow_right (by decide) (Nat.le_of_lt hlt)
      _ ≤ _ := Nat.mul_le_mul_right _ hone
  · rw [← Nat.div_mul_cancel (Nat.pow_dvd_pow 2 hle)]
    exact Nat.mul_le_mul_right _ (Nat.div_le_div_right h)

theorem nearest_of_overflow (negative : Bool) (h : overflowUnits ≤ num / den) :
    nearest negative num den = .infinity negative := by
  apply dif_neg
  apply Nat.not_lt.2
  unfold overflowUnits at h ⊢
  generalize overflowExponent = exponent at h ⊢
  exact le_round h

/-- Equal ratios have one nearest double. -/
theorem nearest_eq_of_mul_eq {num' den' : Nat} (hden : 0 < den) (hden' : 0 < den')
    (h : num * den' = num' * den) (negative : Bool) :
    nearest negative num den = nearest negative num' den' := by
  calc nearest negative num den = nearest negative (den' * num) (den' * den) :=
        (nearest_mul hden' negative).symm
    _ = nearest negative (den * num') (den * den') := by
        rw [Nat.mul_comm den' num, h, Nat.mul_comm num' den, Nat.mul_comm den' den]
    _ = nearest negative num' den' := nearest_mul hden negative

theorem round_le {exponent : Nat} (h : num / den < 2 ^ exponent) :
    round num den ≤ 2 ^ exponent := by
  have hspacing : 0 < 2 ^ excessBits (num / den) := Nat.two_pow_pos _
  have hexcess : excessBits (num / den) ≤ exponent := by
    apply excessBits_le
    exact Nat.lt_of_lt_of_le h (Nat.pow_le_pow_right (by decide) (Nat.le_add_left _ _))
  have hquotient : num / den / 2 ^ excessBits (num / den) <
      2 ^ (exponent - excessBits (num / den)) := by
    rw [Nat.div_lt_iff_lt_mul hspacing, ← Nat.pow_add, Nat.sub_add_cancel hexcess]
    exact h
  calc round num den
      ≤ (num / (den * 2 ^ excessBits (num / den)) + 1) * 2 ^ excessBits (num / den) :=
        Nat.mul_le_mul_right _ (roundHalfEven_le _ _)
    _ ≤ 2 ^ (exponent - excessBits (num / den)) * 2 ^ excessBits (num / den) := by
        rw [← Nat.div_div_eq_div_mul]
        exact Nat.mul_le_mul_right _ hquotient
    _ = _ := by rw [← Nat.pow_add, Nat.sub_add_cancel hexcess]

/-- Multiples of a power of two stay so. -/
theorem two_pow_dvd_round {exponent : Nat} (h : 2 ^ exponent ∣ num) :
    2 ^ exponent ∣ round num 1 := by
  unfold round
  dsimp only
  rw [Nat.div_one, Nat.one_mul, Nat.pow_eq]
  rcases Nat.le_total exponent (excessBits num) with hle | hle
  · exact Nat.dvd_trans (Nat.pow_dvd_pow 2 hle) (Nat.dvd_mul_left _ _)
  · obtain ⟨n, hn⟩ := Nat.dvd_trans (Nat.pow_dvd_pow 2 hle) h
    rw [Nat.mul_comm] at hn
    have hsame : roundHalfEven num (2 ^ excessBits num) * 2 ^ excessBits num = num := by
      generalize 2 ^ excessBits num = spacing at hn
      rcases Nat.eq_zero_or_pos spacing with rfl | hpos
      · simp [hn]
      · rw [hn, roundHalfEven_of_dvd hpos]
    rwa [hsame]

/-- Rounding within the binade of the ratio. -/
theorem round_eq {excess significand : Nat} (hden : 0 < den)
    (hbinade : excess = 0 ∨ 2 ^ (52 + excess) * den ≤ num)
    (hlt : num < 2 ^ (53 + excess) * den)
    (hlow : 2 * (significand * (den * 2 ^ excess)) ≤ 2 * num + den * 2 ^ excess)
    (hhigh : 2 * num ≤ 2 * (significand * (den * 2 ^ excess)) + den * 2 ^ excess)
    (hodd : significand % 2 = 1 →
      2 * (significand * (den * 2 ^ excess)) < 2 * num + den * 2 ^ excess ∧
        2 * num < 2 * (significand * (den * 2 ^ excess)) + den * 2 ^ excess) :
    round num den = significand * 2 ^ excess := by
  have hexcess : excessBits (num / den) = excess := by
    apply excessBits_eq
    · exact hbinade.imp_right fun hle => (Nat.le_div_iff_mul_le hden).2 hle
    · exact (Nat.div_lt_iff_lt_mul hden).2 hlt
  unfold round
  dsimp only
  rw [hexcess, Nat.pow_eq,
    roundHalfEven_eq (Nat.mul_pos hden (Nat.two_pow_pos _)) hlow hhigh hodd]

/-- A ratio in the interval of a magnitude. -/
structure InReach (units num den : Nat) : Prop where
  pos : 0 < den
  low : 4 * (units * den) ≤ 4 * num + den * reachBelow units
  high : 4 * num ≤ 4 * (units * den) + den * reachAbove units
  odd : units / 2 ^ excessBits units % 2 = 1 →
    4 * (units * den) < 4 * num + den * reachBelow units ∧
      4 * num < 4 * (units * den) + den * reachAbove units

/-- The least magnitude of a binade, below which the doubles are twice as dense. -/
def IsLeast (units : Nat) : Prop :=
  0 < excessBits units ∧ units = 2 ^ (52 + excessBits units)

theorem reachBelow_of_isLeast (h : IsLeast units) :
    reachBelow units = 2 ^ excessBits units := if_pos h

theorem reachBelow_of_not_isLeast (h : ¬ IsLeast units) :
    reachBelow units = 2 * 2 ^ excessBits units := if_neg h

theorem reachAbove_eq (units : Nat) : reachAbove units = 2 * 2 ^ excessBits units := rfl

theorem IsMagnitude.exists_significand (h : IsMagnitude units) :
    ∃ significand, units = significand * 2 ^ excessBits units ∧ significand < 2 ^ 53 ∧
      (0 < excessBits units → 2 ^ 52 ≤ significand) := by
  have hspacing : 0 < 2 ^ excessBits units := Nat.two_pow_pos _
  obtain ⟨significand, hunits⟩ : 2 ^ excessBits units ∣ units := h.dvd
  rw [Nat.mul_comm] at hunits
  refine ⟨significand, hunits, ?_, fun hexcess => ?_⟩
  · apply Nat.lt_of_mul_lt_mul_right (a := 2 ^ excessBits units)
    rw [← hunits, ← Nat.pow_add]
    exact lt_two_pow_excessBits units
  · apply Nat.le_of_mul_le_mul_right _ hspacing
    rw [← hunits, ← Nat.pow_add]
    exact two_pow_le_of_excessBits hexcess

section Binade

variable {significand : Nat} (hunits : units = significand * 2 ^ excessBits units)

include hunits

theorem mul_eq_significand_mul (den : Nat) :
    units * den = significand * (den * 2 ^ excessBits units) :=
  calc units * den = significand * 2 ^ excessBits units * den := congrArg (· * den) hunits
    _ = _ := by ring

theorem div_eq_significand : units / 2 ^ excessBits units = significand :=
  Nat.div_eq_of_eq_mul_left (Nat.two_pow_pos _) hunits

/-- Away from the least magnitude of a binade, the interval lies in the binade. -/
theorem InReach.round_of_not_isLeast (h : InReach units num den) (hleast : ¬ IsLeast units)
    (hupper : significand < 2 ^ 53) (hlower : 0 < excessBits units → 2 ^ 52 ≤ significand) :
    round num den = units := by
  obtain ⟨hden, hlow, hhigh, hodd⟩ := h
  have hspacing : 0 < den * 2 ^ excessBits units := Nat.mul_pos hden (Nat.two_pow_pos _)
  have hbinade : excessBits units = 0 ∨ 2 ^ 52 + 1 ≤ significand := by
    rcases Nat.eq_zero_or_pos (excessBits units) with hzero | hpos
    · exact Or.inl hzero
    · refine Or.inr (Nat.lt_of_le_of_ne (hlower hpos) fun heq => hleast ⟨hpos, ?_⟩)
      rw [Nat.pow_add, heq]
      exact hunits
  have hreach : den * (2 * 2 ^ excessBits units) = 2 * (den * 2 ^ excessBits units) :=
    Nat.mul_left_comm _ _ _
  rw [mul_eq_significand_mul hunits, reachBelow_of_not_isLeast hleast, hreach] at hlow hodd
  rw [mul_eq_significand_mul hunits, reachAbove_eq, hreach] at hhigh
  rw [reachAbove_eq, hreach, div_eq_significand hunits] at hodd
  suffices hround : round num den = significand * 2 ^ excessBits units from
    hround.trans hunits.symm
  have hupper' := Nat.mul_le_mul_right (den * 2 ^ excessBits units) (Nat.succ_le_of_lt hupper)
  rw [Nat.succ_mul] at hupper'
  apply round_eq hden
  · refine hbinade.imp_right fun hlower => ?_
    have hlower' := Nat.mul_le_mul_right (den * 2 ^ excessBits units) hlower
    rw [Nat.pow_add, Nat.mul_assoc, Nat.mul_comm _ den]
    omega
  · rw [Nat.pow_add, Nat.mul_assoc, Nat.mul_comm _ den]
    omega
  · omega
  · omega
  · omega

/-- Below the least magnitude of a binade, the interval reaches into the binade
before it. -/
theorem InReach.round_of_isLeast (h : InReach units num den) (hleast : IsLeast units) :
    round num den = units := by
  obtain ⟨hden, hlow, hhigh, -⟩ := h
  have hsignificand : significand = 2 ^ 52 := by
    apply Nat.eq_of_mul_eq_mul_right (Nat.two_pow_pos (excessBits units))
    rw [← hunits, ← Nat.pow_add]
    exact hleast.2
  have hreach : den * (2 * 2 ^ excessBits units) = 2 * (den * 2 ^ excessBits units) :=
    Nat.mul_left_comm _ _ _
  rw [mul_eq_significand_mul hunits, hsignificand, reachBelow_of_isLeast hleast] at hlow
  rw [mul_eq_significand_mul hunits, hsignificand, reachAbove_eq, hreach] at hhigh
  have hspacing : 0 < den * 2 ^ excessBits units := Nat.mul_pos hden (Nat.two_pow_pos _)
  by_cases hside : 2 ^ 52 * (den * 2 ^ excessBits units) ≤ num
  · suffices hround : round num den = 2 ^ 52 * 2 ^ excessBits units by
      rw [hround, ← Nat.pow_add]
      exact hleast.2.symm
    apply round_eq hden
    · rw [Nat.pow_add, Nat.mul_assoc, Nat.mul_comm _ den]
      exact Or.inr hside
    · rw [Nat.pow_add, Nat.mul_assoc, Nat.mul_comm _ den]
      omega
    · omega
    · omega
    · intro hodd
      simp at hodd
  · obtain ⟨excess, hexcess⟩ := Nat.exists_eq_add_of_lt hleast.1
    have hhalf : den * 2 ^ excessBits units = 2 * (den * 2 ^ excess) := by
      rw [hexcess, Nat.zero_add]
      ring
    rw [hhalf] at hlow hhigh hside hspacing
    suffices hround : round num den = 2 ^ 53 * 2 ^ excess by
      rw [hround, ← Nat.pow_add, hleast.2, hexcess]
      congr 1
      omega
    apply round_eq hden
    · rw [Nat.pow_add, Nat.mul_assoc, Nat.mul_comm _ den]
      omega
    · rw [Nat.pow_add, Nat.mul_assoc, Nat.mul_comm _ den]
      omega
    · omega
    · omega
    · intro hodd
      simp at hodd

end Binade

/-- Ratios in the interval of a magnitude round to it. -/
theorem InReach.round (h : InReach units num den) (hmagnitude : IsMagnitude units) :
    round num den = units := by
  obtain ⟨significand, hunits, hupper, hlower⟩ := hmagnitude.exists_significand
  by_cases hleast : IsLeast units
  · exact h.round_of_isLeast hunits hleast
  · exact h.round_of_not_isLeast hunits hleast hupper hlower

end EnumInline.Double
