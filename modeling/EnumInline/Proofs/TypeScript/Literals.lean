import EnumInline.Json.Quoted
import EnumInline.Proofs.Double.Text
import EnumInline.Proofs.Text.Pieces
import EnumInline.TypeScript.Lexer

/-!
Literals that are written are read back. The numeral that a positive number is written
as is one token, and so is a string in double quotes; each has the value that was
written.
-/

namespace EnumInline.TypeScript

open Text
open Double (Layout)

section Runs

variable {c : Char} {run rest : List Char} {offset : Nat}

theorem not_startsName_of_isAsciiDigit (h : isAsciiDigit c = true) : startsName c = false :=
  Double.of_isAsciiDigit (startsName · = false) (by decide) h

namespace Numeral

theorem isDigitOrSeparator_of_isAsciiDigit (h : isAsciiDigit c = true) :
    isDigitOrSeparator 10 c = true :=
  Double.of_isAsciiDigit (isDigitOrSeparator 10 · = true) (by decide) h

theorem separated_of_digits {afterDigit : Bool} (h : ∀ c ∈ run, isAsciiDigit c = true) :
    separated afterDigit run = true := by
  induction run generalizing afterDigit with
  | nil => rfl
  | cons c run ih =>
    have hne : c ≠ '_' := by
      rintro rfl
      exact absurd (h '_' List.mem_cons_self) (by decide)
    rw [separated.eq_4 _ _ _ (by simp [hne]) (by simp [hne])]
    exact ih fun d hd => h d (List.mem_cons_of_mem c hd)

theorem digits_append (hrun : ∀ c ∈ run, isAsciiDigit c = true)
    (hstop : ∀ c, rest.head? = some c → isDigitOrSeparator 10 c = false) :
    digits 10 ⟨run ++ rest, offset⟩ = ⟨run, ⟨rest, offset + run.length⟩, []⟩ := by
  have htake : (run ++ rest).takeWhile (isDigitOrSeparator 10) = run :=
    takeWhile_append_of_stop
      (fun c hc => isDigitOrSeparator_of_isAsciiDigit (hrun c hc)) hstop
  have hfilter : run.filter (· != '_') = run := by
    rw [List.filter_eq_self]
    intro c hc
    have hne : c ≠ '_' := by
      rintro rfl
      exact absurd (hrun '_' hc) (by decide)
    simpa using hne
  simp only [digits, Cursor.run, Cursor.skip, htake, List.drop_left, hfilter,
    separated_of_digits hrun, if_true]

theorem digits_all (hrun : ∀ c ∈ run, isAsciiDigit c = true) :
    digits 10 ⟨run, offset⟩ = ⟨run, ⟨[], offset + run.length⟩, []⟩ := by
  have hstop : ∀ c, [].head? = some c → isDigitOrSeparator 10 c = false := by simp
  simpa using digits_append hrun hstop

end Numeral

end Runs

namespace Numeral

variable {layout : Layout} {offset : Nat}

theorem isAsciiDigit_of_mem (n : Nat) : ∀ c ∈ Nat.toDigits 10 n, isAsciiDigit c = true :=
  fun _ hc => Double.isAsciiDigit_of_mem_toDigits hc

theorem head?_toDigits_ne {c : Char} (hsign : isAsciiDigit c = false) (n : Nat) :
    (Nat.toDigits 10 n).head? ≠ some c := by
  intro hhead
  have hdigit := isAsciiDigit_of_mem n c (List.mem_of_head? hhead)
  rw [hsign] at hdigit
  cases hdigit

theorem readExponent_unsigned (n offset : Nat) :
    readExponent ⟨'e' :: Nat.toDigits 10 n, offset⟩ =
      .ok ⟨n, ⟨[], offset + 1 + (Nat.toDigits 10 n).length⟩, []⟩ := by
  simp [readExponent, head?_toDigits_ne (by decide : isAsciiDigit '-' = false),
    head?_toDigits_ne (by decide : isAsciiDigit '+' = false), Cursor.skip,
    digits_all (isAsciiDigit_of_mem n), Double.wholeOfDigits_toDigits]

theorem readExponent_negative (n offset : Nat) :
    readExponent ⟨'e' :: '-' :: Nat.toDigits 10 n, offset⟩ =
      .ok ⟨-n, ⟨[], offset + 2 + (Nat.toDigits 10 n).length⟩, []⟩ := by
  simp [readExponent, Cursor.skip, digits_all (isAsciiDigit_of_mem n),
    Double.wholeOfDigits_toDigits]

theorem readExponent_exponentText (layout : Layout) (offset : Nat) :
    readExponent ⟨layout.exponentText, offset⟩ =
      .ok ⟨layout.exponent, ⟨[], offset + layout.exponentText.length⟩, []⟩ := by
  unfold Layout.exponentText
  generalize layout.exponent = exponent
  split
  next hzero =>
    rw [hzero]
    rfl
  next hzero =>
    rw [Int.toString_eq_repr, Int.repr_eq_if]
    split
    next hpos =>
      rw [Nat.toList_repr, readExponent_unsigned, Int.toNat_of_nonneg hpos, List.length_cons,
        Nat.add_right_comm offset 1, Nat.add_assoc]
    next hneg =>
      have hvalue : -(((-exponent).toNat : Nat) : Int) = exponent := by omega
      rw [String.toList_append, Nat.toList_repr]
      change readExponent ⟨'e' :: '-' :: Nat.toDigits 10 _, offset⟩ = _
      rw [readExponent_negative, hvalue, Nat.add_right_comm offset 2, Nat.add_assoc]
      rfl

theorem head?_exponentText {c : Char} (h : layout.exponentText.head? = some c) : c = 'e' := by
  unfold Layout.exponentText at h
  split at h
  · cases h
  · exact (Option.some.inj h).symm

theorem head?_fractionText_append {c : Char}
    (h : (layout.fractionText ++ layout.exponentText).head? = some c) : c = '.' ∨ c = 'e' := by
  unfold Layout.fractionText at h
  split at h
  · exact Or.inr (head?_exponentText h)
  · exact Or.inl (Option.some.inj h).symm

theorem readFraction_text (h : layout.IsNumeral) (offset : Nat) :
    (if (layout.fractionText ++ layout.exponentText).head? = some '.' then
        digits 10 (Cursor.skip ⟨layout.fractionText ++ layout.exponentText, offset⟩ 1)
      else ⟨[], ⟨layout.fractionText ++ layout.exponentText, offset⟩, []⟩) =
      ⟨layout.fraction, ⟨layout.exponentText, offset + layout.fractionText.length⟩, []⟩ := by
  unfold Layout.fractionText
  split
  next hempty =>
    rw [List.isEmpty_iff.1 hempty, List.nil_append, if_neg]
    · rfl
    · intro hpoint
      cases head?_exponentText hpoint
  next =>
    rw [List.cons_append, List.head?_cons, if_pos rfl]
    change digits 10 ⟨layout.fraction ++ layout.exponentText, offset + 1⟩ = _
    rw [digits_append]
    · rw [List.length_cons, Nat.add_right_comm offset 1, Nat.add_assoc]
    · exact fun c hc => h.isDigit c (List.mem_append_right _ hc)
    · intro c hc
      rw [head?_exponentText hc]
      decide

/-- The numeral that a layout writes is read to its end. -/
theorem readDecimal_text (h : layout.IsNumeral) (offset : Nat) :
    readDecimal ⟨layout.text, offset⟩ =
      .ok ⟨.number layout.value, ⟨[], offset + layout.text.length⟩, []⟩ := by
  have htext : layout.text = layout.whole ++ (layout.fractionText ++ layout.exponentText) :=
    List.append_assoc _ _ _
  have hwhole : digits 10 ⟨layout.text, offset⟩ =
      ⟨layout.whole, ⟨layout.fractionText ++ layout.exponentText,
        offset + layout.whole.length⟩, []⟩ := by
    rw [htext, digits_append]
    · exact fun c hc => h.isDigit c (List.mem_append_left _ hc)
    · intro c hc
      rcases head?_fractionText_append hc with rfl | rfl <;> decide
  have hlegacy : (layout.text.head? == some '0' &&
      decide (offset + 1 < offset + layout.whole.length)) = false := by
    rw [Bool.and_eq_false_iff, beq_eq_false_iff_ne, decide_eq_false_iff_not]
    by_cases hzero : layout.text.head? = some '0'
    · right
      rw [htext, List.head?_append] at hzero
      have hhead : layout.whole.head? = some '0' := by
        cases hwhole : layout.whole with
        | nil => exact absurd hwhole h.whole_ne_nil
        | cons c rest =>
          rw [hwhole] at hzero
          exact hzero
      rw [h.leading hhead]
      simp
    · exact Or.inl hzero
  have hbigint : (layout.fractionText ++ layout.exponentText).head? ≠ some 'n' := by
    intro hmark
    rcases head?_fractionText_append hmark with hpoint | hpoint <;> cases hpoint
  have hlength : offset + layout.whole.length + layout.fractionText.length +
      layout.exponentText.length = offset + layout.text.length := by
    rw [htext, List.length_append, List.length_append]
    omega
  unfold readDecimal
  simp only [hwhole, hlegacy, hbigint, readFraction_text h, readExponent_exponentText, hlength]
  rw [if_neg (by simp)]
  rfl

/-- No other radix is announced. -/
theorem radixPrefix?_text (h : layout.IsNumeral) : radixPrefix? layout.text = none := by
  have htext : layout.text = layout.whole ++ (layout.fractionText ++ layout.exponentText) :=
    List.append_assoc _ _ _
  cases hwhole : layout.whole with
  | nil => exact absurd hwhole h.whole_ne_nil
  | cons c rest =>
    rw [htext, hwhole]
    by_cases hzero : c = '0'
    · have hlone : layout.whole = ['0'] := h.leading (by rw [hwhole, hzero]; rfl)
      rw [hwhole] at hlone
      obtain ⟨rfl, rfl⟩ := List.cons.inj hlone
      rw [List.singleton_append]
      cases hmark : layout.fractionText ++ layout.exponentText with
      | nil => rfl
      | cons mark rest =>
        have hmark : mark = '.' ∨ mark = 'e' :=
          head?_fractionText_append (by rw [hmark]; rfl)
        rcases hmark with rfl | rfl <;> rfl
    · simp [radixPrefix?, hzero]

theorem read_text (h : layout.IsNumeral) (offset : Nat) :
    read ⟨layout.text, offset⟩ =
      .ok ⟨.number layout.value, ⟨[], offset + layout.text.length⟩, []⟩ := by
  unfold read
  rw [radixPrefix?_text h]
  exact readDecimal_text h offset

end Numeral

theorem Token.readHere_numeral {layout : Layout} (h : layout.IsNumeral) (offset : Nat) :
    readHere ⟨layout.text, offset⟩ =
      ⟨.number layout.value, ⟨[], offset + layout.text.length⟩, []⟩ := by
  have hread := Numeral.read_text h offset
  cases hwhole : layout.whole with
  | nil => exact absurd hwhole h.whole_ne_nil
  | cons c rest =>
    have hdigit : isAsciiDigit c = true := h.isDigit c (by simp [hwhole])
    have hescape : c ≠ '\\' := by
      rintro rfl
      exact absurd hdigit (by decide)
    obtain ⟨tail, htext⟩ : ∃ tail, layout.text = c :: tail := by
      rw [Layout.text, hwhole]
      exact ⟨_, rfl⟩
    have hname : (startsName c || c == '\\') = false := by
      simp [not_startsName_of_isAsciiDigit hdigit, hescape]
    rw [htext] at hread ⊢
    unfold readHere
    dsimp only
    rw [hname, if_neg Bool.false_ne_true, hdigit, Bool.true_or, if_pos rfl, hread]
    rfl

namespace Quoted

variable {start offset : Nat} {soFar rest : List Char} {faults : List Nat}

theorem readBody_letter {letter c : Char}
    (hread : Escape.read false offset (letter :: rest) = .ok { text := [c], length := 1 }) :
    readBody '"' start soFar faults 0 offset ('\\' :: letter :: rest) =
      readBody '"' start (c :: soFar) faults 0 (offset + 2) rest := by
  simp [readBody, hread]

/-- The code of a control character is read back. -/
theorem read_control {n : Nat} (h : n < 0x20) (offset : Nat) (rest : List Char) :
    Escape.read false offset
        ('u' :: '0' :: '0' :: Json.hexDigit (n / 16) :: Json.hexDigit (n % 16) :: rest) =
      .ok { text := [Char.ofNat n], length := 5 } := by
  have hdigits : ∀ n < 0x20,
      ['0', '0', Json.hexDigit (n / 16), Json.hexDigit (n % 16)].takeWhile
          (fun c => (Double.digitValue? 16 c).isSome) =
        ['0', '0', Json.hexDigit (n / 16), Json.hexDigit (n % 16)] ∧
      Escape.valueOf ['0', '0', Json.hexDigit (n / 16), Json.hexDigit (n % 16)] = n := by
    decide
  obtain ⟨hrun, hvalue⟩ := hdigits n h
  have hcharacter : ¬ (0xd800 ≤ n ∧ n ≤ 0xdfff) := by omega
  simp [Escape.read, Escape.unicode, Escape.hexRun, hrun, hvalue, Escape.decoded, hcharacter]

theorem readBody_escape (c : Char) :
    readBody '"' start soFar faults 0 offset (Json.escape c ++ rest) =
      readBody '"' start (c :: soFar) faults 0 (offset + (Json.escape c).length) rest := by
  unfold Json.escape
  split
  all_goals try exact readBody_letter rfl
  next hquote hbackslash _ _ hnewline hreturn _ =>
    split
    next hcontrol => simp [readBody, read_control hcontrol]
    next hplain =>
      have hend : (c == '\n' || c == '\r') = false := by
        rw [Bool.or_eq_false_iff, beq_eq_false_iff_ne, beq_eq_false_iff_ne]
        exact ⟨hnewline, hreturn⟩
      rw [List.singleton_append, readBody, if_neg hquote, if_neg hbackslash, hend,
        if_neg Bool.false_ne_true]
      rfl

theorem readBody_flatMap_escape (text : List Char) :
    readBody '"' start soFar faults 0 offset (text.flatMap Json.escape ++ ['"']) =
      .ok ⟨soFar.reverse ++ text, ⟨[], offset + (text.flatMap Json.escape).length + 1⟩,
        faults⟩ := by
  induction text generalizing soFar offset with
  | nil => simp [readBody]
  | cons c text ih =>
    rw [List.flatMap_cons, List.append_assoc, readBody_escape, ih, List.reverse_cons,
      List.append_assoc, List.length_append, Nat.add_assoc offset]
    rfl

theorem read_quote (text : List Char) (offset : Nat) :
    read ⟨Json.quote text, offset⟩ =
      .ok ⟨text, ⟨[], offset + (Json.quote text).length⟩, []⟩ := by
  unfold read Json.quote
  dsimp only
  rw [List.cons_append]
  dsimp only
  rw [readBody_flatMap_escape]
  simp
  omega

end Quoted

theorem Token.readHere_quote (text : List Char) (offset : Nat) :
    readHere ⟨Json.quote text, offset⟩ =
      ⟨.string (String.ofList text), ⟨[], offset + (Json.quote text).length⟩, []⟩ := by
  have hread := Quoted.read_quote text offset
  obtain ⟨tail, htext⟩ : ∃ tail, Json.quote text = '"' :: tail := ⟨_, rfl⟩
  rw [htext] at hread ⊢
  unfold readHere
  dsimp only
  rw [hread]
  rfl

end EnumInline.TypeScript
