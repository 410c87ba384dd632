import EnumInline.Analysis
import EnumInline.Proofs.Double.Text
import EnumInline.Proofs.Outcome
import EnumInline.Proofs.Substitution.Replacement
import Mathlib.Data.List.Basic

/-!
Where a literal that takes the place of an access stands in brackets. What would go
wrong without them is said of the value and of the text on either side of it: a point
or a power behind it binds more tightly than an operator before it, a point behind a
numeral belongs to the numeral, and two signs join. Signs are the only operators that
are looked for, so that a complement or a negation never stands in brackets.
-/

namespace EnumInline

open Text

/-- A literal that is not written as a name begins with a quote, a sign or a digit. -/
theorem Literal.mem_names_or_exists_head? (literal : Literal) :
    literal.chars ∈ ["NaN".toList, "Infinity".toList] ∨
      ∃ c, literal.chars.head? = some c ∧ (c = '"' ∨ c = '-' ∨ isAsciiDigit c = true) := by
  cases literal with
  | string text => exact Or.inr ⟨'"', rfl, by decide⟩
  | number value =>
    cases value with
    | nan => exact Or.inl List.mem_cons_self
    | infinity negative =>
      cases negative with
      | false => exact Or.inl (List.mem_cons_of_mem _ List.mem_cons_self)
      | true => exact Or.inr ⟨'-', rfl, by decide⟩
    | finite negative units hmagnitude =>
      right
      rw [chars, Double.text_finite]
      split
      next => exact ⟨'0', rfl, by decide⟩
      next hunits =>
        split
        next => exact ⟨'-', rfl, by decide⟩
        next =>
          obtain ⟨c, hhead, hdigit⟩ :=
            Double.exists_head?_magnitudeText (Nat.pos_of_ne_zero hunits) hmagnitude
          exact ⟨c, hhead, Or.inr (Or.inr hdigit)⟩

/-- No literal begins with one of the operators that are no signs. -/
theorem Literal.exists_head?_chars (literal : Literal) :
    ∃ c, literal.chars.head? = some c ∧ c ≠ '~' ∧ c ≠ '!' := by
  rcases literal.mem_names_or_exists_head? with hname | ⟨c, hhead, hc⟩
  · rcases List.mem_pair.1 hname with hname | hname
    · exact ⟨'N', by rw [hname]; rfl, by decide⟩
    · exact ⟨'I', by rw [hname]; rfl, by decide⟩
  · refine ⟨c, hhead, ?_, ?_⟩
    · rintro rfl
      exact absurd hc (by decide)
    · rintro rfl
      exact absurd hc (by decide)

namespace Substitution

def IsSign (c : Char) : Prop := c = '-' ∨ c = '+'

/-- A text begins with a digit. -/
def StartsWithDigit (text : List Char) : Prop :=
  ∃ c, text.head? = some c ∧ isAsciiDigit c = true

/-- A text begins with a sign. -/
def StartsWithSign (text : List Char) : Prop := ∃ c, text.head? = some c ∧ IsSign c

/-- A text begins with an operator that can stand before a literal. -/
def StartsWithOperator (text : List Char) : Prop :=
  ∃ operator : PrefixOperator, text.head? = some operator.symbol

/-- A text cannot stand between two others without brackets. -/
inductive NeedsBrackets (before text after : List Char) : Prop where
  | member (hafter : after.head? = some '.')
      (htext : StartsWithDigit text ∨ StartsWithOperator text)
  | power (hafter : ['*', '*'] <+: trimStart after) (htext : StartsWithOperator text)
  | sign (hbefore : ∃ c, (trimEnd before).getLast? = some c ∧ IsSign c)
      (htext : StartsWithSign text)

variable {before text after : List Char}

theorem isSigned_iff : isSigned text = true ↔ StartsWithSign text := by
  unfold isSigned StartsWithSign IsSign
  rw [Option.any_eq_true]
  simp only [Bool.or_eq_true, beq_iff_eq]

/-- Where there is a sign, it does not matter what comes behind it. -/
theorem leadsWithDigit_or_iff :
    leadsWithDigit text = true ∨ StartsWithSign text ↔
      StartsWithDigit text ∨ StartsWithSign text := by
  by_cases hsign : StartsWithSign text
  · simp only [hsign, or_true]
  · have hdrop : text.dropWhile (fun c => c == '-' || c == '+') = text := by
      cases text with
      | nil => rfl
      | cons c rest =>
        apply List.dropWhile_cons_of_neg
        intro hc
        exact hsign ⟨c, rfl, by simpa [IsSign] using hc⟩
    rw [leadsWithDigit, hdrop, StartsWithDigit, Option.any_eq_true]

theorem startsWithSign_trimStart_reverse_iff :
    StartsWithSign (trimStart before.reverse) ↔
      ∃ c, (trimEnd before).getLast? = some c ∧ IsSign c := by
  rw [StartsWithSign, trimEnd, List.getLast?_reverse, trimStart]

/-- A text that begins with none of the other operators stands in brackets where it needs
them. -/
theorem needsBrackets_iff (h : StartsWithOperator text → StartsWithSign text) :
    needsBrackets before.reverse text after = true ↔ NeedsBrackets before text after := by
  have hback : StartsWithSign text → StartsWithOperator text := by
    rintro ⟨c, hhead, rfl | rfl⟩
    · exact ⟨.minus, hhead⟩
    · exact ⟨.plus, hhead⟩
  unfold needsBrackets
  simp only [Bool.or_eq_true, Bool.and_eq_true, isSigned_iff, leadsWithDigit_or_iff,
    startsWithSign_trimStart_reverse_iff, beq_iff_eq, List.isPrefixOf_iff_prefix]
  constructor
  · rintro (⟨hafter, htext⟩ | ⟨htext, hafter | hbefore⟩)
    · exact .member hafter (htext.imp_right hback)
    · exact .power hafter (hback htext)
    · exact .sign hbefore htext
  · rintro (⟨hafter, htext⟩ | ⟨hafter, htext⟩ | ⟨hbefore, htext⟩)
    · exact Or.inl ⟨hafter, htext.imp_right h⟩
    · exact Or.inr ⟨h htext, Or.inl hafter⟩
    · exact Or.inr ⟨htext, Or.inr hbefore⟩

/-- A text that begins with neither a digit nor a sign never stands in brackets. -/
theorem needsBrackets_eq_false (hdigit : ¬ StartsWithDigit text) (hsign : ¬ StartsWithSign text) :
    needsBrackets before text after = false := by
  have hneither := mt leadsWithDigit_or_iff.1 (not_or.2 ⟨hdigit, hsign⟩)
  obtain ⟨hlead, -⟩ := not_or.1 hneither
  rw [← isSigned_iff] at hsign
  simp only [needsBrackets, hlead, hsign, Bool.or_self, Bool.and_false, Bool.false_and]

end Substitution

namespace MemberValue

open Substitution

/-- The literal stands behind an operator that is no sign. -/
def IsInverted (value : MemberValue) : Prop :=
  value.operator = some .complement ∨ value.operator = some .not

variable {value : MemberValue}

theorem head?_chars_of_operator {operator : PrefixOperator} (h : value.operator = some operator) :
    value.chars.head? = some operator.symbol := by
  simp [chars, h]

theorem startsWithSign_of_not_isInverted (h : ¬ value.IsInverted)
    (hoperator : StartsWithOperator value.chars) : StartsWithSign value.chars := by
  obtain ⟨operator, hhead⟩ := hoperator
  cases hvalue : value.operator with
  | none =>
    have hchars : value.chars = value.literal.chars := by simp [chars, hvalue]
    obtain ⟨c, hc, hcomplement, hnot⟩ := value.literal.exists_head?_chars
    rw [← hchars, hhead] at hc
    obtain rfl := Option.some.inj hc
    cases operator with
    | minus => exact ⟨'-', hhead, Or.inl rfl⟩
    | plus => exact ⟨'+', hhead, Or.inr rfl⟩
    | complement => exact absurd rfl hcomplement
    | not => exact absurd rfl hnot
  | some own =>
    have hown := head?_chars_of_operator hvalue
    cases own with
    | minus => exact ⟨'-', hown, Or.inl rfl⟩
    | plus => exact ⟨'+', hown, Or.inr rfl⟩
    | complement => exact absurd (Or.inl hvalue) h
    | not => exact absurd (Or.inr hvalue) h

/-- An inverted value begins with neither a digit nor a sign. -/
theorem IsInverted.starts (h : value.IsInverted) :
    ¬ StartsWithDigit value.chars ∧ ¬ StartsWithSign value.chars := by
  obtain ⟨c, hhead, hc⟩ : ∃ c, value.chars.head? = some c ∧ (c = '~' ∨ c = '!') := by
    rcases h with h | h
    · exact ⟨'~', head?_chars_of_operator h, Or.inl rfl⟩
    · exact ⟨'!', head?_chars_of_operator h, Or.inr rfl⟩
  constructor
  · rintro ⟨d, hd, hdigit⟩
    obtain rfl : c = d := Option.some.inj (hhead.symm.trans hd)
    rcases hc with rfl | rfl <;> cases hdigit
  · rintro ⟨d, hd, hsign⟩
    obtain rfl : c = d := Option.some.inj (hhead.symm.trans hd)
    rcases hc with rfl | rfl <;> exact absurd hsign (by unfold IsSign; decide)

/-- What stands in the place of an access to a member with this value. -/
theorem inserted_exact (value : MemberValue) (before after : List Char) :
    (¬ value.IsInverted → NeedsBrackets before value.chars after →
      inserted before.reverse value.chars after = '(' :: value.chars ++ [')']) ∧
    (¬ value.IsInverted → ¬ NeedsBrackets before value.chars after →
      inserted before.reverse value.chars after = value.chars) ∧
    (value.IsInverted → inserted before.reverse value.chars after = value.chars) := by
  unfold inserted
  refine ⟨fun hvalue hneeds => ?_, fun hvalue hneeds => ?_, fun hvalue => ?_⟩
  · rw [if_pos ((needsBrackets_iff (startsWithSign_of_not_isInverted hvalue)).2 hneeds)]
  · rw [if_neg]
    rwa [needsBrackets_iff (startsWithSign_of_not_isInverted hvalue)]
  · obtain ⟨hdigit, hsign⟩ := hvalue.starts
    rw [needsBrackets_eq_false hdigit hsign, if_neg Bool.false_ne_true]

end MemberValue

namespace Substitution

/-- Which literals stand in brackets. Of the accesses in a text that are replaced by
values, those stand in brackets that need them, as long as the operator of the value is
a sign or there is none; a value behind another operator never does. -/
theorem replace_brackets_exact (entries : Entries) (code : String) :
    ∃ spans, Enumerates entries code.toList 0 spans ∧
      replace entries code =
        String.ofList (splice code.toList (replacement entries code.toList) 0 spans) ∧
      ∀ span ∈ spans, ∀ value : MemberValue,
        entries[String.ofList (span.text code.toList)]? = some value.text →
        let before := code.toList.take span.start
        let after := code.toList.drop span.stop
        (¬ value.IsInverted → NeedsBrackets before value.chars after →
          replacement entries code.toList span = '(' :: value.chars ++ [')']) ∧
        (¬ value.IsInverted → ¬ NeedsBrackets before value.chars after →
          replacement entries code.toList span = value.chars) ∧
        (value.IsInverted → replacement entries code.toList span = value.chars) := by
  obtain ⟨spans, hspans, hreplace⟩ := exists_enumerates entries code
  refine ⟨spans, hspans, hreplace, fun span _ value hentry => ?_⟩
  have htext : replacement entries code.toList span =
      inserted (code.toList.take span.start).reverse value.chars
        (code.toList.drop span.stop) := by
    rw [replacement, Std.ExtTreeMap.getD_eq_getD_getElem?, hentry, Option.getD_some,
      MemberValue.text, String.toList_ofList]
    rfl
  rw [htext]
  exact value.inserted_exact _ _

/-- A file with an enum whose only member is a complement. -/
def mask : SourceModule :=
  ⟨"/mask.ts", "/mask",
    [⟨"Mask", false, [⟨"All", .literal (some .complement) (.number .zero)⟩]⟩], [], []⟩

/-- A complement is left without the brackets that it needs before a point. -/
theorem replace_mask :
    ∃ analysis entries value, Analysis.ofModules .empty true [mask] = .ok analysis ∧
      analysis.value? ⟨⟨"/mask", "Mask"⟩, "All"⟩ = some value ∧
      analysis.table.entriesForPath? "/mask.ts" = some entries ∧
      entries["Mask.All"]? = some value.text ∧
      NeedsBrackets [] value.chars ".toString()".toList ∧
      replace entries "Mask.All.toString()" = "~0.toString()" := by
  have hcheck : (Analysis.ofModules .empty true [mask]).toOption.any (fun analysis =>
      decide (analysis.value? ⟨⟨"/mask", "Mask"⟩, "All"⟩ =
        some ⟨some .complement, .number .zero⟩) &&
      (analysis.table.entriesForPath? "/mask.ts").any (fun entries =>
        decide (entries["Mask.All"]? = some "~0") &&
        decide (replace entries "Mask.All.toString()" = "~0.toString()"))) = true := by
    decide +kernel
  obtain ⟨analysis, hanalysis, hfacts⟩ := exists_ok_of_any hcheck
  obtain ⟨hvalue, hentries⟩ := Bool.and_eq_true_iff.1 hfacts
  obtain ⟨entries, hfound, hrest⟩ := (Option.any_eq_true _ _).1 hentries
  simp only [Bool.and_eq_true, decide_eq_true_eq] at hvalue hrest
  have hoperator : StartsWithOperator ['~', '0'] := ⟨.complement, rfl⟩
  exact ⟨analysis, entries, _, hanalysis, hvalue, hfound, hrest.1, .member rfl (Or.inr hoperator),
    hrest.2⟩

end Substitution

end EnumInline
