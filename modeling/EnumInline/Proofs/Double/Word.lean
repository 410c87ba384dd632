import EnumInline.Double.Word
import EnumInline.Enum.Value
import EnumInline.Proofs.Double.Whole
import Mathlib.Data.Int.ModEq
import Mathlib.Data.Rat.Floor

/-!
The whole part of a number as a word. Each operation on the way gives a whole number of at most
53 bits or one that the number had already, so that none of them rounds, and what is read as a
word is in its range. So complements, which are taken of words, are exact.
-/

namespace EnumInline.Double

variable {x y : Double} {k : Int} {m units : Nat} {negative : Bool}

/-- The value of a finite number. -/
def value? : Double → Option ℚ
  | .finite negative units _ => some (signedUnits negative units / unitsPerOne)
  | _ => none

/-- A rational number without its fraction. -/
def towardZero (q : ℚ) : Int := if 0 ≤ q then ⌊q⌋ else ⌈q⌉

theorem isWhole_finite (negative : Bool) (h : IsMagnitude (m * unitsPerOne)) :
    (finite negative (m * unitsPerOne) h).IsWhole (signedUnits negative m) :=
  ⟨negative, _, h, rfl, signedUnits_mul _ _ _⟩

theorem isWhole_ofInt (h : k.natAbs < 2 ^ 53) : (ofInt k).IsWhole k := by
  have hsigned : signedUnits (k < 0) k.natAbs = k := by
    unfold signedUnits
    split
    next hneg =>
      have hneg := of_decide_eq_true hneg
      omega
    next hneg =>
      rw [decide_eq_true_eq] at hneg
      omega
  have hfinite := isWhole_finite (k < 0) (isMagnitude_mul h)
  rwa [hsigned, ← (isMagnitude_mul h).nearest] at hfinite

/-- Without its fraction, a magnitude is one still. -/
theorem isMagnitude_whole (h : IsMagnitude units) :
    IsMagnitude (units / unitsPerOne * unitsPerOne) := by
  by_cases hsmall : units / unitsPerOne < 2 ^ 53
  · exact isMagnitude_mul hsmall
  -- There is no fraction where the bits of the magnitude all lie above it.
  have hlarge : 2 ^ (53 + oneExponent) ≤ units := by
    rw [Nat.pow_add, two_pow_oneExponent]
    exact (Nat.le_div_iff_mul_le unitsPerOne_pos).1 (Nat.not_lt.1 hsmall)
  have hexcess : oneExponent ≤ excessBits units := by
    apply Nat.le_of_not_lt
    intro hlt
    have hbound := lt_two_pow_excessBits units
    have hpow : 2 ^ (53 + excessBits units) ≤ 2 ^ (53 + oneExponent) :=
      Nat.pow_le_pow_right (by decide) (by omega)
    exact Nat.lt_irrefl _ (Nat.lt_of_lt_of_le hbound (Nat.le_trans hpow hlarge))
  have hdvd : unitsPerOne ∣ units := by
    rw [← two_pow_oneExponent]
    exact Nat.dvd_trans (Nat.pow_dvd_pow 2 hexcess) h.dvd
  rwa [Nat.div_mul_cancel hdvd]

theorem isWhole_truncate (negative : Bool) (h : IsMagnitude units) :
    (finite negative units h).truncate.IsWhole (signedUnits negative (units / unitsPerOne)) := by
  have hexact : (finite negative units h).truncate = _ := (isMagnitude_whole h).nearest negative
  rw [hexact]
  exact isWhole_finite _ _

/-- Taking a fraction away is rounding toward zero. -/
theorem towardZero_signedUnits (negative : Bool) (units : Nat) :
    towardZero (signedUnits negative units / unitsPerOne) =
      signedUnits negative (units / unitsPerOne) := by
  have hnonneg : (0 : ℚ) ≤ (units : Int) / unitsPerOne := by positivity
  have hfloor : ⌊((units : Int) / unitsPerOne : ℚ)⌋ = (units : Int) / unitsPerOne :=
    Rat.floor_intCast_div_natCast _ _
  cases negative with
  | false =>
    change towardZero ((units : Int) / unitsPerOne : ℚ) = (units / unitsPerOne : Nat)
    rw [towardZero, if_pos hnonneg, hfloor, Int.natCast_ediv]
  | true =>
    change towardZero ((-(units : Int) : Int) / unitsPerOne : ℚ) = -(units / unitsPerOne : Nat)
    rw [Int.cast_neg, neg_div, towardZero]
    split
    case isTrue hzero =>
      have hzero : ((units : Int) / unitsPerOne : ℚ) = 0 :=
        le_antisymm (neg_nonneg.1 hzero) hnonneg
      rw [hzero, Int.floor_zero] at hfloor
      rw [hzero, Int.natCast_ediv, ← hfloor, neg_zero, Int.floor_zero, neg_zero]
    case isFalse => rw [Int.ceil_neg, hfloor, Int.natCast_ediv]

theorem IsWhole.isBelowZero (h : x.IsWhole k) : x.isBelowZero = decide (k < 0) := by
  obtain ⟨negative, hmagnitude, rfl, hsigned⟩ := h.exists_natAbs
  have hunits : k.natAbs * unitsPerOne ≠ 0 ↔ k ≠ 0 := by
    rw [Nat.mul_ne_zero_iff, and_iff_left (Nat.ne_of_gt unitsPerOne_pos), Int.natAbs_ne_zero]
  rw [Double.isBelowZero, Bool.eq_iff_iff, Bool.and_eq_true, bne_iff_ne, hunits, decide_eq_true_eq]
  cases negative with
  | false =>
    have hnonneg : (k.natAbs : Int) = k := hsigned
    exact ⟨fun h => absurd h.1 Bool.false_ne_true, fun h => by omega⟩
  | true =>
    have hnonpos : -(k.natAbs : Int) = k := hsigned
    rw [and_iff_right rfl]
    omega

theorem IsWhole.remainder (hx : x.IsWhole k) (hy : y.IsWhole m) (hpos : 0 < m)
    (hsmall : m < 2 ^ 53) : (x.remainder y).IsWhole (k.tmod m) := by
  obtain ⟨negative, hmagnitude, rfl, hsigned⟩ := hx.exists_natAbs
  obtain ⟨negative', hmagnitude', rfl, -⟩ := hy.exists_natAbs
  have hleft : k.natAbs % m < 2 ^ 53 := Nat.lt_trans (Nat.mod_lt _ hpos) hsmall
  have hmodulus : ¬ m * unitsPerOne = 0 := Nat.ne_of_gt (Nat.mul_pos hpos unitsPerOne_pos)
  have htmod : signedUnits negative (k.natAbs % m) = k.tmod m := by
    conv => rhs; rw [← hsigned]
    cases negative with
    | false => exact Int.ofNat_tmod k.natAbs m
    | true => exact ((Int.neg_tmod k.natAbs m).trans
        (congrArg (- ·) (Int.ofNat_tmod k.natAbs m).symm)).symm
  change IsWhole (if m * unitsPerOne = 0 then .nan
    else nearest negative (k.natAbs * unitsPerOne % (m * unitsPerOne)) 1) _
  rw [if_neg hmodulus, Nat.mul_mod_mul_right, (isMagnitude_mul hleft).nearest, ← htmod]
  exact isWhole_finite _ _

/-- The remainder is moved up without rounding. -/
theorem IsWhole.wrap (hx : x.IsWhole k) (hy : y.IsWhole m) (hpos : 0 < m)
    (hsmall : m < 2 ^ 53) : (x.wrap y).IsWhole (k % m) := by
  have hleft := hx.remainder hy hpos hsmall
  have hmodulus : y.isBelowZero = false := by
    rw [hy.isBelowZero, decide_eq_false_iff_not]
    omega
  have hbelow : k % m < m := Int.emod_lt_of_pos _ (by omega)
  have hnonneg : 0 ≤ k % m := Int.emod_nonneg _ (by omega)
  have htmod := Int.tmod_eq_emod (a := k) (b := m)
  unfold Double.wrap
  dsimp only
  rw [hleft.isBelowZero, hmodulus, if_neg Bool.false_ne_true]
  split
  case isTrue hneg =>
    have hneg := of_decide_eq_true hneg
    have hsum : k.tmod m + m = k % m := by
      split at htmod <;> simp at htmod <;> omega
    rw [← hsum] at hbelow hnonneg ⊢
    exact hleft.add hy (by omega)
  case isFalse hnot =>
    rw [decide_eq_true_eq] at hnot
    have hsame : k.tmod m = k % m := by
      split at htmod <;> simp at htmod <;> omega
    rwa [hsame] at hleft

theorem IsWhole.toNat_toWord (h : x.IsWhole k) (hnonneg : 0 ≤ k) (hlt : k < 2 ^ 32) :
    (x.toWord.toNat : Int) = k := by
  obtain ⟨negative, hmagnitude, rfl, hsigned⟩ := h.exists_natAbs
  cases negative with
  | true =>
    have hzero : -(k.natAbs : Int) = k := hsigned
    obtain rfl : k = 0 := by omega
    rfl
  | false =>
    have hsize : k.natAbs < UInt32.size := by
      change k.natAbs < 4294967296
      omega
    have hword : (finite false (k.natAbs * unitsPerOne) hmagnitude).toWord =
        .ofNatClamp (k.natAbs * unitsPerOne / unitsPerOne) := rfl
    rw [hword, Nat.mul_div_cancel _ unitsPerOne_pos, UInt32.toNat_ofNatClamp_of_lt hsize]
    exact hsigned

theorem toInt_toInt32_word (word : UInt32) :
    word.toInt32.toInt = (word.toNat : Int).bmod (2 ^ 32) :=
  BitVec.toInt_eq_toNat_bmod _

theorem isWhole_wordCount : wordCount.IsWhole (2 ^ 32 : Nat) :=
  isWhole_ofInt (by decide)

/-- The word on the way to the signed one is the whole part modulo `2 ^ 32`. -/
theorem toNat_toWord_wrap (h : x.IsWhole k) :
    ((x.wrap wordCount).toWord.toNat : Int) = k % (2 ^ 32 : Nat) := by
  have hwrap := h.wrap isWhole_wordCount (by decide) (by decide)
  apply hwrap.toNat_toWord
  · exact Int.emod_nonneg _ (by decide)
  · exact Int.emod_lt_of_pos _ (by decide)

theorem toInt_toInt32 (h : IsMagnitude units) :
    (finite negative units h).toInt32.toInt =
      (signedUnits negative (units / unitsPerOne)).bmod (2 ^ 32) := by
  have hword := toNat_toWord_wrap (isWhole_truncate negative h)
  change (UInt32.toInt32 _).toInt = _
  rw [toInt_toInt32_word, hword, Int.emod_bmod]

theorem toInt_not (word : Int32) : (~~~word).toInt = -1 - word.toInt := by
  have hle := word.le_toInt
  have hlt := word.toInt_lt
  rw [Int32.toInt_not, Int.bmod_eq_of_le] <;> omega

theorem isWhole_complement (x : Double) : x.complement.IsWhole (-1 - x.toInt32.toInt) := by
  have hle := x.toInt32.le_toInt
  have hlt := x.toInt32.toInt_lt
  rw [complement, toInt_not]
  exact isWhole_ofInt (by omega)

/-- The signed word is the only one that is congruent to the whole part. -/
theorem eq_toInt32_iff (h : IsMagnitude units) (k : Int) :
    k = (finite negative units h).toInt32.toInt ↔
      -2 ^ 31 ≤ k ∧ k < 2 ^ 31 ∧ k ≡ signedUnits negative (units / unitsPerOne) [ZMOD 2 ^ 32] := by
  rw [toInt_toInt32, eq_comm, Int.bmod_eq_iff (by decide), Int.modEq_comm, Int.modEq_iff_dvd]
  norm_num

/-- The steps from a number to the word of its whole part are exact: none of them rounds, and
the last one meets a number that is in the range of a word. -/
structure IsReducedExactly (x : Double) (q : ℚ) : Prop where
  truncate : x.truncate.IsWhole (towardZero q)
  remainder : (x.truncate.remainder wordCount).IsWhole ((towardZero q).tmod (2 ^ 32))
  wrap : (x.truncate.wrap wordCount).IsWhole (towardZero q % 2 ^ 32)
  word : ((x.truncate.wrap wordCount).toWord.toNat : Int) = towardZero q % 2 ^ 32

theorem isReducedExactly {x : Double} {q : ℚ} (h : x.value? = some q) : x.IsReducedExactly q := by
  cases x with
  | nan => cases h
  | infinity negative => cases h
  | finite negative units hmagnitude =>
    obtain rfl := Option.some.inj h
    have hwhole := isWhole_truncate negative hmagnitude
    rw [← towardZero_signedUnits] at hwhole
    exact ⟨hwhole, hwhole.remainder isWhole_wordCount (by decide) (by decide),
      hwhole.wrap isWhole_wordCount (by decide) (by decide), toNat_toWord_wrap hwhole⟩

theorem toInt32_of_value?_none {x : Double} (h : x.value? = none) : x.toInt32 = 0 := by
  cases x with
  | nan => rfl
  | infinity negative => rfl
  | finite negative units hmagnitude => cases h

end EnumInline.Double

namespace EnumInline.MemberValue

open Double

/-- Counting gives plain numbers. -/
theorem text_ordinal {number : Double} {whole : Int} (h : number.IsWhole whole)
    (hbound : whole.natAbs < 2 ^ 53) : (ordinal number).text = toString whole := by
  change String.ofList number.text = toString whole
  rw [h.text hbound, String.ofList_toList]

/-- Complements are exact. The word of a finite number is the one integer in the range of
signed words that is congruent to the number without its fraction, and nothing is rounded or
cut on the way to it; a number that is not finite has the word zero. The complement is one less
than the negated word, and the next member counts on from there. -/
theorem numeric?_complement_exact (x : Double) :
    (∀ q, x.value? = some q → x.IsReducedExactly q ∧
      ∀ k : Int, k = x.toInt32.toInt ↔
        -2 ^ 31 ≤ k ∧ k < 2 ^ 31 ∧ k ≡ towardZero q [ZMOD 2 ^ 32]) ∧
      (x.value? = none → x.toInt32.toInt = 0 ∧ x.complement.IsWhole (-1)) ∧
      numeric? ⟨some .complement, .number x⟩ = some x.complement ∧
      x.complement.IsWhole (-1 - x.toInt32.toInt) ∧
      ∃ next, next? ⟨some .complement, .number x⟩ = some next ∧
        next.text = toString (-x.toInt32.toInt) := by
  have hcomplement := isWhole_complement x
  refine ⟨fun q hq => ⟨isReducedExactly hq, ?unique⟩, fun hnone => ?infinite, rfl, hcomplement,
    _, rfl, ?next⟩
  case unique =>
    cases x with
    | nan => cases hq
    | infinity negative => cases hq
    | finite negative units hmagnitude =>
      obtain rfl := Option.some.inj hq
      rw [towardZero_signedUnits]
      exact eq_toInt32_iff hmagnitude
  case infinite =>
    rw [toInt32_of_value?_none hnone] at hcomplement ⊢
    exact ⟨rfl, hcomplement⟩
  case next =>
    have hle := x.toInt32.le_toInt
    have hlt := x.toInt32.toInt_lt
    have hsum : -1 - x.toInt32.toInt + 1 = -x.toInt32.toInt := by omega
    have hnext := hcomplement.add_one (by omega)
    rw [hsum] at hnext
    exact text_ordinal hnext (by omega)

/-- A number a half below `-3 * 2 ^ 31`. -/
def belowWords : Double :=
  .finite true (12884901889 * Nat.pow 2 1073) ⟨by decide +kernel, by decide +kernel⟩

theorem numeric?_complement_exact_belowWords :
    ∃ q, belowWords.value? = some q ∧ towardZero q = -6442450944 ∧
      belowWords.toInt32.toInt = -2147483648 ∧ belowWords.complement.IsWhole 2147483647 ∧
      ∃ next, next? ⟨some .complement, .number belowWords⟩ = some next ∧
        next.text = "2147483648" := by
  obtain ⟨hfinite, -, -, hcomplement, next, hnext, htext⟩ := numeric?_complement_exact belowWords
  obtain ⟨-, hunique⟩ := hfinite _ rfl
  have hwhole : towardZero (signedUnits true (12884901889 * Nat.pow 2 1073) / unitsPerOne) =
      -6442450944 := by
    rw [towardZero_signedUnits]
    decide +kernel
  have hword : -2147483648 = belowWords.toInt32.toInt := by
    apply (hunique _).2
    rw [hwhole]
    decide
  rw [← hword] at hcomplement htext ⊢
  exact ⟨_, rfl, hwhole, rfl, hcomplement, next, hnext, htext⟩

end EnumInline.MemberValue
