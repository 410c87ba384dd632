import EnumInline.Proofs.Substitution.Replacement

/-!
What stands to the left of an access that is replaced. An access is left alone if it goes
on a longer name or a longer chain of members, as far as the scanner sees that: it asks
whether the character before the access is one of those it gathers into names, and
whether the access stands right behind the point of a chain. Source text has more
characters in its names, it marks private names with a number sign, and it allows blanks
behind a point; what is continued over those is not seen.
-/

namespace EnumInline.Substitution

open Text

/-- A text ends in a point that is not the last of a spread. -/
def EndsInMemberPoint (text : List Char) : Prop :=
  ['.'] <:+ text ∧ ¬ ['.', '.', '.'] <:+ text

/-- The character before a position is part of a name of the source language, or it is the
mark of a private one. -/
def ContinuesName (code : List Char) (position : Nat) : Prop :=
  ∃ c, (code.take position).getLast? = some c ∧ (continuesName c = true ∨ c = '#')

/-- What stands before a position, blanks apart, ends in the point of a member access. -/
def ContinuesChain (code : List Char) (position : Nat) : Prop :=
  EndsInMemberPoint (trimEnd (code.take position))

/-- What the scanner asks of the text before an access. -/
structure StandsFree (code : List Char) (position : Nat) : Prop where
  name : ∀ c, (code.take position).getLast? = some c → continuesToken c = false
  chain : ¬ EndsInMemberPoint (code.take position)

/-- A span is an access that has an entry and that ends where its second name does. Nothing
is asked of the text before it. -/
structure IsAccess (entries : Entries) (code : List Char) (span : Span) : Prop where
  names : ∃ middle, span.start < middle ∧
    (∀ i, span.start ≤ i → i < middle → ∃ c, code[i]? = some c ∧ continuesToken c = true) ∧
    (∃ c, code[span.start]? = some c ∧ startsToken c = true) ∧
    code[middle]? = some '.' ∧ IsName code (middle + 1) span.stop
  entry : String.ofList (span.text code) ∈ entries

variable {entries : Entries} {code text : List Char} {position : Nat} {span : Span}

theorem getLast?_take_succ (h : position < code.length) :
    (code.take (position + 1)).getLast? = code[position]? := by
  rw [List.getLast?_eq_getElem?, List.length_take, Nat.min_eq_left h,
    List.getElem?_take_of_lt (by omega)]
  rfl

/-- The character before an occurrence is none that the scanner gathers into names. -/
theorem IsOccurrence.standsFree (h : IsOccurrence entries code span) :
    StandsFree code span.start := by
  refine ⟨fun c hc => ?_, h.whole⟩
  obtain ⟨middle, hname, -, -⟩ := h.access
  have hlt := h.start_lt
  have hlength := h.le_length
  cases hstart : span.start with
  | zero =>
    rw [hstart, List.take_zero] at hc
    cases hc
  | succ position =>
    rw [hstart, getLast?_take_succ (by omega)] at hc
    exact hname.earlier position c hstart.symm hc

theorem IsAccess.isOccurrence_iff (h : IsAccess entries code span) :
    IsOccurrence entries code span ↔ StandsFree code span.start := by
  constructor
  · exact IsOccurrence.standsFree
  · intro hfree
    obtain ⟨middle, hnonempty, hinside, hhead, hpoint, hsecond⟩ := h.names
    have hrun : IsRun code span.start middle := by
      refine ⟨hnonempty, hinside, fun i c hi hc => ?_, fun c hc => ?_⟩
      · apply hfree.name c
        have hlt := (List.getElem?_eq_some_iff.1 hc).1
        rw [← hi, getLast?_take_succ hlt, hc]
      · obtain rfl : '.' = c := Option.some.inj (hpoint.symm.trans hc)
        exact continuesToken_point
    exact ⟨⟨middle, ⟨hrun, hhead⟩, hpoint, hsecond⟩, hfree.chain, h.entry⟩

theorem trimEnd_of_getLast? (h : ∀ c, text.getLast? = some c → isBlank c = false) :
    trimEnd text = text := by
  have hdrop : text.reverse.dropWhile isBlank = text.reverse := by
    cases hreverse : text.reverse with
    | nil => rfl
    | cons c rest =>
      apply List.dropWhile_cons_of_neg
      rw [h c (by rw [← List.head?_reverse, hreverse, List.head?_cons])]
      exact Bool.false_ne_true
  rw [trimEnd, hdrop, List.reverse_reverse]

/-- What stands free continues a name only over characters that the scanner does not gather
into names. -/
theorem StandsFree.of_continuesName (h : StandsFree code position)
    (hname : ContinuesName code position) :
    ∃ c, (code.take position).getLast? = some c ∧
      (continuesName c = true ∧ continuesToken c = false ∨ c = '#') := by
  obtain ⟨c, hc, hname⟩ := hname
  exact ⟨c, hc, hname.imp_left fun hcontinues => ⟨hcontinues, h.name c hc⟩⟩

theorem StandsFree.of_continuesChain (h : StandsFree code position)
    (hchain : ContinuesChain code position) :
    ∃ c, (code.take position).getLast? = some c ∧ isBlank c = true := by
  apply Classical.byContradiction
  intro hnone
  have hsame : trimEnd (code.take position) = code.take position := by
    apply trimEnd_of_getLast?
    intro c hc
    apply Bool.eq_false_iff.2
    intro hblank
    exact hnone ⟨c, hc, hblank⟩
  rw [ContinuesChain, hsame] at hchain
  exact h.chain hchain

/-- What an access that is replaced can continue. An access that has an entry is
replaced unless it stands behind a letter, a number, an underscore or a dollar sign, or
right behind the point of a chain. One that is replaced may still continue a name, over
other characters of names and over number signs, and a chain, over blanks. -/
theorem replace_left_context (entries : Entries) (code : String) :
    ∃ spans, Enumerates entries code.toList 0 spans ∧
      replace entries code =
        String.ofList (splice code.toList (replacement entries code.toList) 0 spans) ∧
      (∀ span, IsAccess entries code.toList span →
        (span ∈ spans ↔ StandsFree code.toList span.start)) ∧
      ∀ span ∈ spans,
        StandsFree code.toList span.start ∧
        (ContinuesName code.toList span.start →
          ∃ c, (code.toList.take span.start).getLast? = some c ∧
            (continuesName c = true ∧ continuesToken c = false ∨ c = '#')) ∧
        (ContinuesChain code.toList span.start →
          ∃ c, (code.toList.take span.start).getLast? = some c ∧ isBlank c = true) := by
  obtain ⟨spans, hspans, hreplace⟩ := exists_enumerates entries code
  refine ⟨spans, hspans, hreplace, fun span haccess => ?_, fun span hspan => ?_⟩
  · rw [hspans.mem_iff, and_iff_left (Nat.zero_le _)]
    exact haccess.isOccurrence_iff
  · obtain ⟨hoccurrence, -⟩ := (hspans.mem_iff span).1 hspan
    have hfree := hoccurrence.standsFree
    exact ⟨hfree, hfree.of_continuesName, hfree.of_continuesChain⟩

/-- The access is replaced behind a point and a blank, behind the mark of a private name,
and behind a name that ends in a combining mark. -/
theorem replace_continued :
    let entries : Entries := .ofList [("Color.Red", "0")]
    (replace entries "x. Color.Red" = "x. 0" ∧ ContinuesChain "x. Color.Red".toList 3) ∧
      (replace entries "this.#Color.Red" = "this.#0" ∧
        ContinuesName "this.#Color.Red".toList 6) ∧
      replace entries "e\u0301Color.Red" = "e\u03010" ∧
        ContinuesName "e\u0301Color.Red".toList 2 := by
  intro entries
  refine ⟨⟨by decide +kernel, ?_⟩, ⟨by decide +kernel, ?_⟩, by decide +kernel, ?_⟩
  · unfold ContinuesChain EndsInMemberPoint
    decide +kernel
  · exact ⟨'#', rfl, Or.inr rfl⟩
  · exact ⟨'\u0301', rfl, Or.inl (by decide +kernel)⟩

end EnumInline.Substitution
