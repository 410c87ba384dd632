import EnumInline.Text.Character

/-!
Names as source text spells them.
-/

namespace EnumInline.Text

def isSourceName : List Char → Bool
  | [] => false
  | c :: rest => startsName c && rest.all continuesName

/-- What may start a name may go on with it. -/
theorem continuesName_of_startsName {c : Char} (h : startsName c = true) :
    continuesName c = true := by
  have hwithin : CodeRange.within nameStartRanges nameContinueRanges = true := by
    decide +kernel
  simp only [startsName, Bool.or_eq_true, Bool.and_eq_true] at h
  simp only [continuesName, Bool.or_eq_true, Bool.and_eq_true]
  rcases h with ((hletter | hdollar) | hunderscore) | ⟨hbeyond, hcovers⟩
  · simp [hletter]
  · simp [hdollar]
  · simp [hunderscore]
  · exact Or.inr ⟨hbeyond, CodeRange.covers_of_within hwithin hcovers⟩

theorem ne_nil_of_isSourceName {text : List Char} (h : isSourceName text = true) : text ≠ [] := by
  rintro rfl
  cases h

theorem continuesName_of_mem {c : Char} {text : List Char} (h : isSourceName text = true)
    (hc : c ∈ text) : continuesName c = true := by
  cases text with
  | nil => cases h
  | cons first rest =>
    simp only [isSourceName, Bool.and_eq_true, List.all_eq_true] at h
    rcases List.mem_cons.1 hc with rfl | hc
    · exact continuesName_of_startsName h.1
    · exact h.2 c hc

theorem isSourceName_append {text more : List Char} (h : isSourceName text = true)
    (hmore : more.all continuesName = true) : isSourceName (text ++ more) = true := by
  cases text with
  | nil => cases h
  | cons c rest =>
    simp only [isSourceName, List.cons_append, List.all_append, Bool.and_eq_true] at h ⊢
    exact ⟨h.1, h.2, hmore⟩

end EnumInline.Text
