import EnumInline.Proofs.Double.Rounding

/-!
The shortest decimal of a double reads back as it: seventeen digits always serve, since
the decimals of that many digits are closer to each other than the doubles.
-/

namespace EnumInline.Double

variable {units n : Nat} {exponent : Int}

theorem scaledDecimal_eq (n : Nat) (exponent : Int) :
    scaledDecimal n exponent = n * scaledDecimal 1 exponent := by
  unfold scaledDecimal
  split
  · rw [Nat.one_mul]
  · rw [Nat.one_mul, Nat.mul_assoc]

theorem scaledUnits_eq (units : Nat) (exponent : Int) :
    scaledUnits units exponent = units * scaledUnits 1 exponent := by
  unfold scaledUnits
  split
  · rw [Nat.one_mul]
  · rw [Nat.mul_one]

theorem scaledDecimal_pos (exponent : Int) : 0 < scaledDecimal 1 exponent := by
  unfold scaledDecimal
  split
  · rw [Nat.one_mul]
    exact unitsPerOne_pos
  · rw [Nat.one_mul]
    exact Nat.mul_pos (Nat.pow_pos (by decide)) unitsPerOne_pos

theorem scaledUnits_pos (exponent : Int) : 0 < scaledUnits 1 exponent := by
  unfold scaledUnits
  split
  · rw [Nat.one_mul]
    exact Nat.pow_pos (by decide)
  · decide

/-- Steps of a grid are ten times those of the next. -/
theorem scaled_succ (exponent : Int) :
    scaledDecimal 1 (exponent + 1) * scaledUnits 1 exponent =
      10 * (scaledDecimal 1 exponent * scaledUnits 1 (exponent + 1)) := by
  unfold scaledDecimal scaledUnits
  simp only [Nat.one_mul, Nat.pow_eq]
  by_cases hneg : exponent < 0
  · have hpow : 10 ^ exponent.natAbs = 10 * 10 ^ (exponent + 1).natAbs := by
      rw [← Nat.pow_succ']
      congr 1
      omega
    rw [if_pos hneg, if_pos hneg, hpow]
    split
    · ring
    · have hzero : exponent + 1 = 0 := by omega
      rw [hzero]
      simp
      ring
  · have hpow : 10 ^ (exponent + 1).natAbs = 10 * 10 ^ exponent.natAbs := by
      rw [← Nat.pow_succ']
      congr 1
      omega
    rw [if_neg hneg, if_neg hneg, if_neg (by omega), if_neg (by omega), hpow]
    ring

/-- Many steps of a grid in one of a coarser grid. -/
theorem scaled_add (exponent : Int) (count : Nat) :
    scaledDecimal 1 (exponent + count) * scaledUnits 1 exponent =
      10 ^ count * (scaledDecimal 1 exponent * scaledUnits 1 (exponent + count)) := by
  induction count with
  | zero => simp
  | succ count ih =>
    have hstep := scaled_succ (exponent + count)
    apply Nat.eq_of_mul_eq_mul_right (scaledUnits_pos (exponent + count))
    rw [Nat.cast_succ, ← Int.add_assoc]
    calc scaledDecimal 1 (exponent + count + 1) * scaledUnits 1 exponent *
            scaledUnits 1 (exponent + count)
        = scaledDecimal 1 (exponent + count + 1) * scaledUnits 1 (exponent + count) *
            scaledUnits 1 exponent := by ring
      _ = 10 * (scaledDecimal 1 (exponent + count) * scaledUnits 1 exponent) *
            scaledUnits 1 (exponent + count + 1) := by
          rw [hstep]
          ring
      _ = _ := by
          rw [ih]
          ring

def Decimal.nearest (d : Decimal) : Double :=
  Double.nearest false (scaledDecimal d.digits d.exponent) (scaledUnits 1 d.exponent)

theorem Decimal.nearest_mul_ten (digits : Nat) (exponent : Int) :
    (⟨10 * digits, exponent⟩ : Decimal).nearest = (⟨digits, exponent + 1⟩ : Decimal).nearest := by
  refine nearest_eq_of_mul_eq (scaledUnits_pos _) (scaledUnits_pos _) ?_ _
  dsimp only
  rw [scaledDecimal_eq, scaledDecimal_eq digits, Nat.mul_assoc digits, scaled_succ]
  ring

theorem Decimal.nearest_dropZeros (fuel : Nat) (d : Decimal) :
    (dropZeros fuel d).nearest = d.nearest := by
  induction fuel generalizing d with
  | zero => rfl
  | succ fuel ih =>
    unfold dropZeros
    split
    next hzero =>
      rw [ih, ← Decimal.nearest_mul_ten, Nat.mul_div_cancel' (Nat.dvd_of_mod_eq_zero hzero.2)]
    next => rfl

theorem le_exponent_dropZeros (fuel : Nat) (d : Decimal) :
    d.exponent ≤ (dropZeros fuel d).exponent := by
  induction fuel generalizing d with
  | zero => exact Int.le_refl _
  | succ fuel ih =>
    unfold dropZeros
    split
    · exact Int.le_trans (Int.le_add_one (Int.le_refl _)) (ih _)
    · exact Int.le_refl _

theorem reachBelow_pos (units : Nat) : 0 < reachBelow units := by
  by_cases hleast : IsLeast units
  · rw [reachBelow_of_isLeast hleast]
    exact Nat.two_pow_pos _
  · rw [reachBelow_of_not_isLeast hleast]
    exact Nat.mul_pos (by decide) (Nat.two_pow_pos _)

theorem reachAbove_pos (units : Nat) : 0 < reachAbove units :=
  Nat.mul_pos (by decide) (Nat.two_pow_pos _)

/-- The interval holds positive numbers only. -/
theorem reachBelow_le (hunits : 0 < units) : reachBelow units ≤ 2 * units := by
  have hspacing : 2 ^ excessBits units ≤ units := by
    rcases Nat.eq_zero_or_pos (excessBits units) with hzero | hpos
    · rw [hzero]
      exact hunits
    · exact Nat.le_trans (Nat.pow_le_pow_right (by decide) (Nat.le_add_left _ _))
        (two_pow_le_of_excessBits hpos)
  by_cases hleast : IsLeast units
  · rw [reachBelow_of_isLeast hleast]
    omega
  · rw [reachBelow_of_not_isLeast hleast]
    omega

theorem inReach_of_readsBack (h : readsBack units n exponent = true) :
    InReach units (scaledDecimal n exponent) (scaledUnits 1 exponent) := by
  unfold readsBack at h
  dsimp only at h
  rw [scaledUnits_eq (4 * units - reachBelow units), scaledUnits_eq (4 * units + _),
    Nat.sub_mul, Nat.add_mul, Nat.mul_assoc, Nat.mul_comm (reachBelow units),
    Nat.mul_comm (reachAbove units)] at h
  rw [Nat.pow_eq] at h
  split at h
  next heven =>
    simp only [Bool.and_eq_true, decide_eq_true_eq, beq_iff_eq] at h heven
    refine ⟨scaledUnits_pos exponent, ?_, ?_, fun hodd => ?_⟩ <;> omega
  next heven =>
    simp only [Bool.and_eq_true, decide_eq_true_eq] at h
    refine ⟨scaledUnits_pos exponent, ?_, ?_, fun hodd => ?_⟩ <;> omega

/-- What lies strictly in the interval reads back. -/
theorem readsBack_of_lt
    (hlow : (4 * units - reachBelow units) * scaledUnits 1 exponent <
      4 * scaledDecimal n exponent)
    (hhigh : 4 * scaledDecimal n exponent <
      (4 * units + reachAbove units) * scaledUnits 1 exponent) :
    readsBack units n exponent = true := by
  unfold readsBack
  dsimp only
  rw [scaledUnits_eq (4 * units - reachBelow units), scaledUnits_eq (4 * units + _)]
  split <;> simp only [Bool.and_eq_true, decide_eq_true_eq] <;> omega

theorem readsBack_of_nearestOnGrid? (h : nearestOnGrid? units exponent = some n) :
    readsBack units n exponent = true := by
  unfold nearestOnGrid? at h
  dsimp only at h
  split at h
  next hbelow habove =>
    split at h
    · cases h
      exact hbelow
    · split at h
      · cases h
        exact habove
      · generalize scaledUnits units exponent / scaledDecimal 1 exponent = below at *
        obtain heven | hodd := Nat.mod_two_eq_zero_or_one below
        · rw [heven] at h
          cases h
          exact hbelow
        · rw [hodd] at h
          cases h
          exact habove
  next hbelow _ =>
    cases h
    exact hbelow
  next _ habove =>
    cases h
    exact habove
  next => cases h

/-- A grid has a candidate if one of the two neighbours on it reads back. -/
theorem isSome_nearestOnGrid?
    (h : readsBack units (scaledUnits units exponent / scaledDecimal 1 exponent) exponent = true ∨
      readsBack units (scaledUnits units exponent / scaledDecimal 1 exponent + 1) exponent =
        true) : (nearestOnGrid? units exponent).isSome := by
  unfold nearestOnGrid?
  dsimp only
  split
  · split
    · rfl
    · split <;> rfl
  · rfl
  · rfl
  next hbelow habove =>
    rw [hbelow, habove] at h
    simp at h

/-- A grid with steps smaller than the interval has a candidate. -/
theorem isSome_nearestOnGrid?_of_lt (hunits : 0 < units)
    (h : 4 * scaledDecimal 1 exponent <
      (reachBelow units + reachAbove units) * scaledUnits 1 exponent) :
    (nearestOnGrid? units exponent).isSome := by
  have hstep : 0 < scaledDecimal 1 exponent := scaledDecimal_pos exponent
  have hscale : 0 < scaledUnits 1 exponent := scaledUnits_pos exponent
  have hreach := Nat.mul_le_mul_right (scaledUnits 1 exponent) (reachBelow_le hunits)
  rw [Nat.mul_assoc] at hreach
  have habove := Nat.mul_pos (reachAbove_pos units) hscale
  apply isSome_nearestOnGrid?
  by_cases hreads : readsBack units
      (scaledUnits units exponent / scaledDecimal 1 exponent) exponent = true
  · exact Or.inl hreads
  · right
    have hfloor := Nat.div_mul_le_self (scaledUnits units exponent) (scaledDecimal 1 exponent)
    have hnext := Nat.lt_div_mul_add (a := scaledUnits units exponent) hstep
    generalize scaledUnits units exponent / scaledDecimal 1 exponent = below at *
    rw [scaledUnits_eq units] at hfloor hnext
    rw [Nat.add_mul] at h
    have hlow : 4 * scaledDecimal below exponent ≤
        (4 * units - reachBelow units) * scaledUnits 1 exponent := by
      apply Nat.le_of_not_lt
      intro hlow
      refine hreads (readsBack_of_lt hlow ?_)
      rw [scaledDecimal_eq, Nat.add_mul, Nat.mul_assoc]
      omega
    rw [scaledDecimal_eq, Nat.sub_mul, Nat.mul_assoc] at hlow
    apply readsBack_of_lt
    · rw [scaledDecimal_eq, Nat.add_mul below, Nat.one_mul, Nat.sub_mul, Nat.mul_assoc]
      omega
    · rw [scaledDecimal_eq, Nat.add_mul below, Nat.one_mul, Nat.add_mul, Nat.mul_assoc]
      omega

/-- A whole number is on the grid of the whole numbers. -/
theorem isSome_nearestOnGrid?_of_dvd (hunits : 0 < units) (h : unitsPerOne ∣ units) :
    (nearestOnGrid? units 0).isSome := by
  have hdecimal (n : Nat) : scaledDecimal n 0 = n * unitsPerOne := by
    rw [scaledDecimal, if_neg (by decide)]
    exact congrArg (· * unitsPerOne) (Nat.mul_one n)
  have hscaled (n : Nat) : scaledUnits n 0 = n := if_neg (by decide)
  have hbelow := reachBelow_pos units
  have habove := reachAbove_pos units
  apply isSome_nearestOnGrid?
  left
  apply readsBack_of_lt
  · rw [hdecimal, hdecimal, hscaled, hscaled, Nat.one_mul, Nat.div_mul_cancel h]
    omega
  · rw [hdecimal, hdecimal, hscaled, hscaled, Nat.one_mul, Nat.div_mul_cancel h]
    omega

theorem ten_pow_decimalLength_le (hpos : 0 < n) : 10 ^ (decimalLength n - 1) ≤ n := by
  apply Nat.le_of_not_lt
  intro hlt
  rcases Nat.eq_zero_or_pos (decimalLength n - 1) with hzero | hlong
  · rw [hzero] at hlt
    omega
  · have hle : decimalLength n ≤ decimalLength n - 1 :=
      (Nat.length_toDigits_le_iff (by decide) hlong).2 hlt
    omega

theorem lt_ten_pow_decimalLength (n : Nat) : n < 10 ^ decimalLength n :=
  (Nat.length_toDigits_le_iff (by decide) Nat.length_toDigits_pos).1 (Nat.le_refl _)

/-- The power of ten at the exponent of a magnitude is not above it. -/
theorem scaledDecimal_decimalExponent_le (hunits : 0 < units) :
    scaledDecimal 1 (decimalExponent units) ≤
      units * scaledUnits 1 (decimalExponent units) := by
  have hone : 0 < unitsPerOne := unitsPerOne_pos
  unfold decimalExponent
  split
  next hle =>
    have hquotient : 0 < units / unitsPerOne := Nat.div_pos hle hone
    have hlength : 0 < decimalLength (units / unitsPerOne) := Nat.length_toDigits_pos
    have hpower := ten_pow_decimalLength_le hquotient
    rw [Nat.le_div_iff_mul_le hone] at hpower
    unfold scaledDecimal scaledUnits
    rw [if_neg (by omega), if_neg (by omega), Nat.mul_one, Nat.one_mul]
    have hexponent : ((decimalLength (units / unitsPerOne) : Int) - 1).natAbs =
        decimalLength (units / unitsPerOne) - 1 := by omega
    rw [hexponent]
    exact hpower
  next hlt =>
    have hlength : 0 < decimalLength ((unitsPerOne - 1) / units) := Nat.length_toDigits_pos
    have hpower := lt_ten_pow_decimalLength ((unitsPerOne - 1) / units)
    rw [Nat.div_lt_iff_lt_mul hunits] at hpower
    unfold scaledDecimal scaledUnits
    rw [if_pos (by omega), if_pos (by omega), Nat.one_mul, Nat.one_mul, Int.natAbs_neg,
      Int.natAbs_natCast, Nat.mul_comm]
    change _ ≤ 10 ^ decimalLength ((unitsPerOne - 1) / units) * units
    omega

/-- Sixteen more digits than the first make the steps smaller than the interval. -/
theorem isSome_nearestOnGrid?_sub (hunits : 0 < units) :
    (nearestOnGrid? units (decimalExponent units - 16)).isSome := by
  have hreach : 4 * units < (reachBelow units + reachAbove units) * 10 ^ 16 := by
    have hspacing : 0 < 2 ^ excessBits units := Nat.two_pow_pos _
    rw [reachAbove_eq]
    by_cases hleast : IsLeast units
    · rw [reachBelow_of_isLeast hleast]
      conv_lhs => rw [hleast.2, Nat.pow_add]
      omega
    · rw [reachBelow_of_not_isLeast hleast]
      have hbound : units < 2 ^ (53 + excessBits units) := lt_two_pow_excessBits units
      rw [Nat.pow_add] at hbound
      omega
  have hscale := scaledUnits_pos (decimalExponent units)
  have hstep : 10 ^ 16 * scaledDecimal 1 (decimalExponent units - 16) ≤
      units * scaledUnits 1 (decimalExponent units - 16) := by
    have hadd := scaled_add (decimalExponent units - 16) 16
    have hexponent : decimalExponent units - 16 + (16 : Nat) = decimalExponent units := by omega
    rw [hexponent] at hadd
    apply Nat.le_of_mul_le_mul_right _ hscale
    calc 10 ^ 16 * scaledDecimal 1 (decimalExponent units - 16) *
            scaledUnits 1 (decimalExponent units)
        = scaledDecimal 1 (decimalExponent units) *
            scaledUnits 1 (decimalExponent units - 16) := by rw [hadd, Nat.mul_assoc]
      _ ≤ units * scaledUnits 1 (decimalExponent units) *
            scaledUnits 1 (decimalExponent units - 16) :=
          Nat.mul_le_mul_right _ (scaledDecimal_decimalExponent_le hunits)
      _ = _ := by ring
  apply isSome_nearestOnGrid?_of_lt hunits
  have hwide := Nat.mul_lt_mul_of_pos_right hreach
    (scaledUnits_pos (decimalExponent units - 16))
  apply Nat.lt_of_mul_lt_mul_left (a := 10 ^ 16)
  calc 10 ^ 16 * (4 * scaledDecimal 1 (decimalExponent units - 16))
      ≤ 4 * units * scaledUnits 1 (decimalExponent units - 16) := by
        rw [Nat.mul_left_comm, Nat.mul_assoc]
        exact Nat.mul_le_mul_left _ hstep
    _ < _ := hwide
    _ = _ := by ring

/-- The search ends at a grid that has a candidate, and passes by none. -/
theorem exists_searchGrids_eq {target : Int} {more : Nat}
    (hsome : (nearestOnGrid? units target).isSome) (hle : target ≤ exponent)
    (hlt : exponent < target + more) :
    ∃ n found, nearestOnGrid? units found = some n ∧ target ≤ found ∧
      searchGrids units more exponent = dropZeros 17 ⟨n, found⟩ := by
  induction more generalizing exponent with
  | zero => omega
  | succ more ih =>
    unfold searchGrids
    cases hgrid : nearestOnGrid? units exponent with
    | some n => exact ⟨n, exponent, hgrid, hle, rfl⟩
    | none =>
      have hne : target ≠ exponent := by
        rintro rfl
        simp [hgrid] at hsome
      exact ih (by omega) (by omega)

/-- The shortest decimal comes from a candidate, on a grid of whole numbers if the
number is whole. -/
theorem exists_shortest_eq (hunits : 0 < units) :
    ∃ n found, nearestOnGrid? units found = some n ∧
      (unitsPerOne ∣ units → 0 ≤ found) ∧ shortest units = dropZeros 17 ⟨n, found⟩ := by
  by_cases hwhole : unitsPerOne ∣ units ∧ decimalExponent units ≤ 16
  · have hexponent : 0 ≤ decimalExponent units := by
      have hlength : 0 < decimalLength (units / unitsPerOne) := Nat.length_toDigits_pos
      rw [decimalExponent, if_pos (Nat.le_of_dvd hunits hwhole.1)]
      omega
    obtain ⟨n, found, hgrid, hle, hsearch⟩ :=
      exists_searchGrids_eq (isSome_nearestOnGrid?_of_dvd hunits hwhole.1) hexponent
        (by omega : decimalExponent units < 0 + (17 : Nat))
    exact ⟨n, found, hgrid, fun _ => hle, hsearch⟩
  · obtain ⟨n, found, hgrid, hle, hsearch⟩ :=
      exists_searchGrids_eq (isSome_nearestOnGrid?_sub hunits) (by omega : _ ≤ decimalExponent units)
        (by omega : decimalExponent units < decimalExponent units - 16 + (17 : Nat))
    refine ⟨n, found, hgrid, fun hdvd => ?_, hsearch⟩
    omega

/-- The shortest decimal of a double reads back as it. -/
theorem nearest_shortest (hunits : 0 < units) (hmagnitude : IsMagnitude units) :
    (shortest units).nearest = .finite false units hmagnitude := by
  obtain ⟨n, found, hgrid, -, hshortest⟩ := exists_shortest_eq hunits
  have hround := (inReach_of_readsBack (readsBack_of_nearestOnGrid? hgrid)).round hmagnitude
  rw [hshortest, Decimal.nearest_dropZeros]
  unfold Decimal.nearest Double.nearest
  simp only [hround, hmagnitude.lt_overflow, dite_true]

/-- A whole number has no digits behind the point. -/
theorem exponent_shortest_nonneg (hunits : 0 < units) (hdvd : unitsPerOne ∣ units) :
    0 ≤ (shortest units).exponent := by
  obtain ⟨n, found, -, hfound, hshortest⟩ := exists_shortest_eq hunits
  rw [hshortest]
  exact Int.le_trans (hfound hdvd) (le_exponent_dropZeros 17 _)

/-- Another number has some. -/
theorem exponent_shortest_neg (hunits : 0 < units) (hmagnitude : IsMagnitude units)
    (hdvd : ¬ unitsPerOne ∣ units) : (shortest units).exponent < 0 := by
  have hround := round_of_nearest (nearest_shortest hunits hmagnitude)
  apply Int.not_le.1
  intro hexponent
  apply hdvd
  unfold scaledDecimal scaledUnits at hround
  rw [if_neg (by omega), if_neg (by omega)] at hround
  rw [← hround, ← two_pow_oneExponent]
  exact two_pow_dvd_round (Nat.dvd_mul_left _ _)

/-- The digits of a positive number are not all zero. -/
theorem digits_shortest_pos (hunits : 0 < units) (hmagnitude : IsMagnitude units) :
    0 < (shortest units).digits := by
  have hround := round_of_nearest (nearest_shortest hunits hmagnitude)
  apply Nat.pos_of_ne_zero
  intro hzero
  rw [hzero, scaledDecimal_eq, Nat.zero_mul, round_zero] at hround
  omega

end EnumInline.Double
