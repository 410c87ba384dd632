import EnumInline.Proofs.Substitution.Idempotence

/-!
What a replacement keeps. Characters that neither an access nor a literal nor a bracket
holds are the same ones afterwards, in the same order. Line ends are of that kind, so
that a source keeps its lines.
-/

namespace EnumInline.Substitution

open Text

/-- Characters that stand in no access, in no literal and are no brackets. -/
structure AreForeign (kept : Char → Bool) (entries : Entries) : Prop where
  name : ∀ c, continuesToken c = true → kept c = false
  point : kept '.' = false
  opening : kept '(' = false
  closing : kept ')' = false
  literal : ∀ access literal : String, entries[access]? = some literal →
    ∀ c ∈ literal.toList, kept c = false

section Kept

variable {entries : Entries} {kept : Char → Bool} {access name rest after : List Char}

theorem filter_eq_nil {text : List Char} (h : ∀ c ∈ text, kept c = false) :
    text.filter kept = [] :=
  List.filter_eq_nil_iff.2 fun c hc => by simp [h c hc]

variable (h : AreForeign kept entries)

include h

theorem AreForeign.filter_run (hname : ∀ c ∈ name, continuesToken c = true) :
    name.filter kept = [] :=
  filter_eq_nil fun c hc => h.name c (hname c hc)

theorem AreForeign.filter_inserted {literal : String} {before : List Char}
    (hentry : entries[String.ofList access]? = some literal) :
    (inserted before literal.toList after).filter kept = [] := by
  have hliteral : literal.toList.filter kept = [] := filter_eq_nil (h.literal _ _ hentry)
  unfold inserted
  split
  · simp [List.filter_append, hliteral, h.opening, h.closing]
  · exact hliteral

/-- One pass keeps the characters. -/
theorem AreForeign.filter_go (fuel : Nat) (before text : List Char) :
    (go entries fuel before text).filter kept = text.filter kept := by
  induction fuel generalizing before text with
  | zero => rfl
  | succ fuel ih =>
    rcases isClear_or_splits text with hclear | ⟨between, name, rest, hsplits⟩
    · rw [go_of_isClear hclear]
    · have hname : name.filter kept = [] := h.filter_run hsplits.name
      cases hfound : occurrence? entries (between.reverse ++ before) name rest with
      | none =>
        rw [go_of_none hsplits hfound, hsplits.text_eq]
        simp only [List.filter_append, hname, ih]
      | some found =>
        obtain ⟨access, literal, after⟩ := found
        obtain ⟨-, -, haccess, hentry⟩ := occurrence?_some hfound
        obtain ⟨member, -, hrest, hmember⟩ := exists_member_of_access haccess
        rw [go_of_some hsplits hfound, hsplits.text_eq, hrest]
        simp only [List.filter_append, List.filter_cons, hname, h.filter_inserted hentry, h.point,
          h.filter_run hmember, ih]
        rfl

theorem AreForeign.filter_replace (code : String) :
    (replace entries code).toList.filter kept = code.toList.filter kept := by
  rw [replace, onChars, String.toList_ofList]
  exact h.filter_go _ _ _

theorem AreForeign.count_replace {c : Char} (hc : kept c = true) (code : String) :
    (replace entries code).toList.count c = code.toList.count c := by
  rw [← List.count_filter hc, h.filter_replace, List.count_filter hc]

end Kept

def isLineEnd (c : Char) : Bool := c == '\n' || c == '\r'

/-- Line ends are foreign to literals without control characters. -/
theorem areForeign_isLineEnd {entries : Entries}
    (hliterals : ∀ access literal : String, entries[access]? = some literal →
      ∀ c ∈ literal.toList, 0x20 ≤ c.toNat) : AreForeign isLineEnd entries where
  name c hc := by
    have hends : continuesToken '\n' = false ∧ continuesToken '\r' = false := by decide +kernel
    rw [isLineEnd, Bool.or_eq_false_iff, beq_eq_false_iff_ne, beq_eq_false_iff_ne]
    constructor
    · rintro rfl
      rw [hends.1] at hc
      cases hc
    · rintro rfl
      rw [hends.2] at hc
      cases hc
  point := rfl
  opening := rfl
  closing := rfl
  literal access literal hentry c hc := by
    have hle := hliterals access literal hentry c hc
    rw [isLineEnd, Bool.or_eq_false_iff, beq_eq_false_iff_ne, beq_eq_false_iff_ne]
    constructor <;> rintro rfl <;> exact absurd hle (by decide)

end EnumInline.Substitution
