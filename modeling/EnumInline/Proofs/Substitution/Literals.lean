import EnumInline.Proofs.Double.Text
import EnumInline.Proofs.KeyedList
import EnumInline.Proofs.Substitution.Idempotence
import EnumInline.Table.Build
import Mathlib.Data.List.Basic

/-!
The texts of values are sealed. Strings stand between quotes. Numbers begin and end
with digits, apart from their signs; the mark of the exponent is the only letter in
them, and it stands behind a digit, where no name begins. The numbers that are not
finite are written as names, and that a file knows no enum by those names has to be
assumed.
-/

namespace EnumInline

open Text

namespace Substitution

section Sealed

variable {entries : Entries} {c d : Char} {rest text : List Char}

/-- A character that belongs to no name can be put in front. -/
theorem IsSealed.cons (h : IsSealed entries text) (hpoint : c ≠ '.')
    (hc : continuesToken c = false) : IsSealed entries (c :: text) where
  first := ⟨c, text, rfl, hpoint⟩
  name hname := by
    rw [List.head?_cons, Option.any_some, startsToken_eq_false hc] at hname
    cases hname
  last := by
    obtain ⟨d, rest, rfl, -⟩ := h.first
    simpa using h.last
  ending front name htext hne hname hfront := by
    cases front with
    | nil =>
      obtain rfl : c :: text = name := htext
      rw [hname c List.mem_cons_self] at hc
      cases hc
    | cons d front =>
      obtain ⟨rfl, hrest⟩ := List.cons.inj htext
      refine h.ending front name hrest hne hname fun d hd => hfront d ?_
      rw [List.getLast?_cons, hd]
      rfl

/-- A text between characters that belong to no name. -/
theorem isSealed_of_ends (hfirst : c ≠ '.') (hc : continuesToken c = false)
    (hlast : d ≠ '.') (hd : continuesToken d = false) :
    IsSealed entries (c :: rest ++ [d]) where
  first := ⟨c, rest ++ [d], rfl, hfirst⟩
  name hname := by
    rw [List.cons_append, List.head?_cons, Option.any_some, startsToken_eq_false hc] at hname
    cases hname
  last := by
    rw [List.getLast?_append]
    simpa using hlast
  ending front name htext hne hname _ := by
    have hlast := congrArg List.getLast? htext
    rw [List.getLast?_append, List.getLast?_append, List.getLast?_eq_some_getLast hne] at hlast
    obtain rfl : d = name.getLast hne := by simpa using hlast
    rw [hname _ (List.getLast_mem hne)] at hd
    cases hd

/-- A name that begins no access with an entry. -/
theorem isSealed_of_name (hne : text ≠ []) (hname : ∀ c ∈ text, continuesToken c = true)
    (hnone : ∀ before rest, occurrence? entries before text rest = none) :
    IsSealed entries text where
  first := by
    obtain ⟨c, rest, rfl⟩ := List.exists_cons_of_ne_nil hne
    exact ⟨c, rest, rfl, ne_point_of_continuesToken (hname c List.mem_cons_self)⟩
  name _ := hname
  last hlast := ne_point_of_continuesToken (hname _ (List.mem_of_getLast? hlast)) rfl
  ending front name htext hne hrun hfront := by
    cases hlast : front.getLast? with
    | none =>
      obtain rfl := List.getLast?_eq_none_iff.1 hlast
      obtain rfl : text = name := htext
      exact hnone
    | some c =>
      have hc := hname c (by simp [htext, List.mem_of_getLast? hlast])
      rw [hfront c hlast] at hc
      cases hc

end Sealed

section Digits

variable {c : Char}

/-- Digits belong to names, and no name begins with one. -/
theorem token_of_isAsciiDigit (h : isAsciiDigit c = true) :
    continuesToken c = true ∧ startsToken c = false :=
  Double.of_isAsciiDigit (fun c => continuesToken c = true ∧ startsToken c = false)
    (by decide +kernel) h

theorem startsToken_of_isAsciiDigit (h : isAsciiDigit c = true) : startsToken c = false :=
  (token_of_isAsciiDigit h).2

theorem continuesToken_of_isAsciiDigit (h : isAsciiDigit c = true) : continuesToken c = true :=
  (token_of_isAsciiDigit h).1

theorem ne_point_of_isAsciiDigit (h : isAsciiDigit c = true) : c ≠ '.' :=
  ne_point_of_continuesToken (continuesToken_of_isAsciiDigit h)

def EndsInDigit (text : List Char) : Prop :=
  ∃ c, text.getLast? = some c ∧ isAsciiDigit c = true

theorem endsInDigit_append (front : List Char) {digits : List Char} (hne : digits ≠ [])
    (hdigits : ∀ c ∈ digits, isAsciiDigit c = true) : EndsInDigit (front ++ digits) := by
  refine ⟨digits.getLast hne, ?_, hdigits _ (List.getLast_mem hne)⟩
  rw [List.getLast?_append, List.getLast?_eq_some_getLast hne]
  rfl

end Digits

section Numerals

variable {layout : Double.Layout} (h : layout.IsNumeral)

include h

theorem startsToken_of_mem_digits {c : Char}
    (hc : c ∈ layout.whole ++ layout.fractionText) : startsToken c = false := by
  unfold Double.Layout.fractionText at hc
  rcases List.mem_append.1 hc with hc | hc
  · exact startsToken_of_isAsciiDigit (h.isDigit c (List.mem_append_left _ hc))
  · split at hc
    · cases hc
    · rcases List.mem_cons.1 hc with rfl | hc
      · exact startsToken_eq_false continuesToken_point
      · exact startsToken_of_isAsciiDigit (h.isDigit c (List.mem_append_right _ hc))

theorem endsInDigit_digits : EndsInDigit (layout.whole ++ layout.fractionText) := by
  unfold Double.Layout.fractionText
  split
  next hempty =>
    rw [List.append_nil, ← List.nil_append layout.whole]
    exact endsInDigit_append _ h.whole_ne_nil fun c hc => h.isDigit c (by simp [hc])
  next hne =>
    rw [← List.singleton_append, ← List.append_assoc]
    refine endsInDigit_append _ (fun hnil => hne (by rw [hnil]; rfl)) fun c hc => ?_
    exact h.isDigit c (by simp [hc])

theorem endsInDigit_text : EndsInDigit layout.text := by
  unfold Double.Layout.text Double.Layout.exponentText
  split
  next =>
    rw [List.append_nil]
    exact endsInDigit_digits h
  next =>
    obtain ⟨sign, magnitude, htext, -⟩ := Double.toList_toString_int layout.exponent
    rw [htext, ← List.cons_append, ← List.append_assoc]
    exact endsInDigit_append _ Nat.toDigits_ne_nil fun c hc =>
      Double.isAsciiDigit_of_mem_toDigits hc

/-- A letter in a numeral stands behind a digit. -/
theorem endsInDigit_of_startsToken {c : Char} {front rest : List Char}
    (htext : layout.text = front ++ c :: rest) (hc : startsToken c = true) :
    EndsInDigit front := by
  have hdigits : c ∉ layout.whole ++ layout.fractionText := fun hmem => by
    rw [startsToken_of_mem_digits h hmem] at hc
    cases hc
  unfold Double.Layout.text Double.Layout.exponentText at htext
  split at htext
  next =>
    refine absurd ?_ hdigits
    rw [List.append_nil] at htext
    simp [htext]
  next =>
    obtain ⟨sign, magnitude, hexponent, hsign⟩ := Double.toList_toString_int layout.exponent
    have hmagnitude : c ∉ sign ++ Nat.toDigits 10 magnitude := fun hmem => by
      have hfalse : startsToken c = false := by
        rcases List.mem_append.1 hmem with hmem | hmem
        · rcases hsign with rfl | rfl
          · cases hmem
          · obtain rfl := List.mem_singleton.1 hmem
            exact startsToken_eq_false (continuesToken_of_mem_symbols (by simp))
        · exact startsToken_of_isAsciiDigit (Double.isAsciiDigit_of_mem_toDigits hmem)
      rw [hfalse] at hc
      cases hc
    rw [hexponent] at htext
    obtain ⟨rfl, -⟩ := (List.append_cons_inj_of_notMem hdigits hmagnitude).1 htext
    exact endsInDigit_digits h

theorem isSealed_text (entries : Entries) : IsSealed entries layout.text where
  first := by
    obtain ⟨c, rest, htext, hdigit⟩ := h.exists_digit
    exact ⟨c, rest, htext, ne_point_of_isAsciiDigit hdigit⟩
  name hname := by
    obtain ⟨c, rest, htext, hdigit⟩ := h.exists_digit
    rw [htext, List.head?_cons, Option.any_some, startsToken_of_isAsciiDigit hdigit] at hname
    cases hname
  last := by
    obtain ⟨c, hlast, hdigit⟩ := endsInDigit_text h
    rw [hlast]
    intro hpoint
    exact ne_point_of_isAsciiDigit hdigit (Option.some.inj hpoint)
  ending front name htext hne _ hfront := by
    cases name with
    | nil => exact absurd rfl hne
    | cons c rest =>
      intro before behind
      cases hc : startsToken c with
      | false => exact occurrence?_eq_none_of_head (by simpa using hc)
      | true =>
        obtain ⟨d, hlast, hdigit⟩ := endsInDigit_of_startsToken h htext hc
        have hclear := hfront d hlast
        rw [continuesToken_of_isAsciiDigit hdigit] at hclear
        cases hclear

end Numerals

/-- No entry replaces a member of an enum that is called as a number is. -/
def SparesNumbers (entries : Entries) : Prop :=
  ∀ name ∈ ["NaN", "Infinity"], ∀ member, ReplacementTable.token name member ∉ entries

theorem sparesNumbers_iff {entries : Entries} :
    SparesNumbers entries ↔ ∀ entry ∈ entries.toList, ∀ name ∈ ["NaN", "Infinity"],
      ¬ name.toList ++ ['.'] <+: entry.1.toList := by
  constructor
  · rintro h ⟨access, text⟩ hentry name hname ⟨member, hmember⟩
    have haccess : access = ReplacementTable.token name (String.ofList member) := by
      rw [← String.toList_inj, ← hmember]
      simp [ReplacementTable.token]
    rw [Std.ExtTreeMap.mem_toList_iff_getElem?_eq_some, haccess] at hentry
    exact h name hname _ (KeyedList.mem_iff_exists.2 ⟨text, hentry⟩)
  · intro h name hname member hmem
    obtain ⟨text, hentry⟩ := KeyedList.mem_iff_exists.1 hmem
    rw [← Std.ExtTreeMap.mem_toList_iff_getElem?_eq_some] at hentry
    exact h _ hentry name hname ⟨member.toList, by simp [ReplacementTable.token]⟩

instance {entries : Entries} : Decidable (SparesNumbers entries) :=
  decidable_of_iff _ sparesNumbers_iff.symm

theorem SparesNumbers.isSealed {entries : Entries} (h : SparesNumbers entries) {name : String}
    (hname : name ∈ ["NaN", "Infinity"]) : IsSealed entries name.toList := by
  have hrun : name.toList ≠ [] ∧ name.toList.all continuesToken = true := by
    rcases List.mem_pair.1 hname with rfl | rfl <;> decide +kernel
  refine isSealed_of_name hrun.1 (List.all_eq_true.1 hrun.2) fun before rest => ?_
  cases hfound : occurrence? entries before name.toList rest with
  | none => rfl
  | some found =>
    obtain ⟨-, -, haccess, hentry⟩ := occurrence?_some hfound
    obtain ⟨member, hmember, -⟩ := exists_member_of_access haccess
    have htoken : String.ofList found.1 =
        ReplacementTable.token name (String.ofList member) := by
      rw [hmember, ← String.toList_inj]
      simp [ReplacementTable.token]
    rw [htoken] at hentry
    exact absurd (KeyedList.mem_iff_exists.2 ⟨_, hentry⟩) (h name hname _)

end Substitution

open Substitution

/-- A string or a finite number, which is not written as a name. -/
def Literal.IsFinite : Literal → Prop
  | .string _ => True
  | .number (.finite _ _ _) => True
  | .number _ => False

instance : DecidablePred Literal.IsFinite
  | .string _ => isTrue trivial
  | .number (.finite _ _ _) => isTrue trivial
  | .number .nan => isFalse id
  | .number (.infinity _) => isFalse id

theorem Literal.IsFinite.isSealed_chars {literal : Literal} (h : literal.IsFinite)
    (entries : Entries) : IsSealed entries literal.chars := by
  have hquote : continuesToken '"' = false := continuesToken_of_mem_symbols (by simp)
  have hminus : continuesToken '-' = false := continuesToken_of_mem_symbols (by simp)
  cases literal with
  | string text => exact isSealed_of_ends (by decide) hquote (by decide) hquote
  | number value =>
    cases value with
    | nan => exact h.elim
    | infinity negative => exact h.elim
    | finite negative units hmagnitude =>
      obtain ⟨sign, layout, hnumeral, htext, hsign⟩ :=
        Double.exists_layout negative units hmagnitude
      rw [chars, htext]
      rcases hsign with rfl | ⟨-, rfl⟩
      · exact isSealed_text hnumeral entries
      · exact (isSealed_text hnumeral entries).cons (by decide) hminus

theorem MemberValue.isSealed_chars_of_literal {entries : Entries} {value : MemberValue}
    (h : IsSealed entries value.literal.chars) : IsSealed entries value.chars := by
  obtain ⟨operator, literal⟩ := value
  cases operator with
  | none => exact h
  | some operator =>
    have hpoint : operator.symbol ≠ '.' := by
      cases operator <;> decide
    have hsymbol : continuesToken operator.symbol = false := by
      apply continuesToken_of_mem_symbols
      cases operator <;> simp [PrefixOperator.symbol]
    exact h.cons hpoint hsymbol

section Names

variable {entries : Entries} (h : SparesNumbers entries)

include h

theorem Literal.isSealed_chars (literal : Literal) : IsSealed entries literal.chars := by
  by_cases hfinite : literal.IsFinite
  · exact hfinite.isSealed_chars entries
  match literal, hfinite with
  | .string _, hfinite => exact absurd trivial hfinite
  | .number (.finite _ _ _), hfinite => exact absurd trivial hfinite
  | .number .nan, _ => exact h.isSealed (by simp)
  | .number (.infinity false), _ => exact h.isSealed (by simp)
  | .number (.infinity true), _ =>
    have hminus : continuesToken '-' = false := continuesToken_of_mem_symbols (by simp)
    have hinfinity : IsSealed entries "Infinity".toList := h.isSealed (by simp)
    exact hinfinity.cons (by decide) hminus

theorem MemberValue.isSealed_chars (value : MemberValue) : IsSealed entries value.chars :=
  isSealed_chars_of_literal (Literal.isSealed_chars h value.literal)

end Names

namespace Substitution

/-- Replacing is idempotent with the texts of values that are strings or finite numbers,
if nothing is replaced in any of them. -/
theorem replace_replace_of_isFinite {entries : Entries}
    (hvalues : ∀ access text : String, entries[access]? = some text →
      ∃ value : MemberValue, value.literal.IsFinite ∧ text = value.text)
    (hstill : ∀ access text : String, entries[access]? = some text →
      replace entries text = text) (code : String) :
    replace entries (replace entries code) = replace entries code := by
  refine replace_replace_of_fewer (fun access text hentry => ?_) hstill (fun _ h => h) code
  obtain ⟨value, hfinite, rfl⟩ := hvalues access text hentry
  rw [MemberValue.text, String.toList_ofList]
  exact MemberValue.isSealed_chars_of_literal (hfinite.isSealed_chars entries)

/-- The values of a few members, with the accesses that they replace. -/
def prices : List (String × MemberValue) :=
  [("Price.Huge", ⟨none, .number (.ofInt 1000000000000000000000)⟩),
    ("Price.Least", ⟨some .minus, .number .one⟩),
    ("Tag.Text", ⟨none, .string ".Price"⟩)]

def priceEntries : Entries := .ofList (prices.map fun price => (price.1, price.2.text))

theorem replace_replace_of_isFinite_prices :
    (∀ access text : String, priceEntries[access]? = some text →
      ∃ value : MemberValue, value.literal.IsFinite ∧ text = value.text) ∧
    (∀ access text : String, priceEntries[access]? = some text →
      replace priceEntries text = text) ∧
    replace priceEntries "Price.Huge.Least-Price.Least...Tag.Text.Least" =
      "(1e21).Least-(-1)...\".Price\".Least" ∧
    replace priceEntries (replace priceEntries "Price.Huge.Least-Price.Least...Tag.Text.Least") =
      replace priceEntries "Price.Huge.Least-Price.Least...Tag.Text.Least" := by
  have hlist : priceEntries.toList = prices.map fun price => (price.1, price.2.text) := by
    decide +kernel
  have hprice (access text : String) (h : priceEntries[access]? = some text) :
      ∃ price ∈ prices, text = price.2.text := by
    rw [← Std.ExtTreeMap.mem_toList_iff_getElem?_eq_some, hlist] at h
    obtain ⟨price, hmem, hsame⟩ := List.mem_map.1 h
    exact ⟨price, hmem, (Prod.mk.inj hsame).2.symm⟩
  have hvalues (access text : String) (h : priceEntries[access]? = some text) :
      ∃ value : MemberValue, value.literal.IsFinite ∧ text = value.text := by
    obtain ⟨price, hmem, htext⟩ := hprice access text h
    have hfinite : ∀ price ∈ prices, price.2.literal.IsFinite := by decide +kernel
    exact ⟨price.2, hfinite price hmem, htext⟩
  have hstill (access text : String) (h : priceEntries[access]? = some text) :
      replace priceEntries text = text := by
    obtain ⟨price, hmem, rfl⟩ := hprice access text h
    have hsame : ∀ price ∈ prices, replace priceEntries price.2.text = price.2.text := by
      decide +kernel
    exact hsame price hmem
  exact ⟨hvalues, hstill, by decide +kernel, replace_replace_of_isFinite hvalues hstill _⟩

end Substitution

end EnumInline
