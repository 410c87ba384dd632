import EnumInline.Text.Character
import Mathlib.Data.List.Chain

/-!
Membership in the tables of characters. The walk over a table stops at the first range that begins
above a character; it overlooks none, as the ranges of every table ascend.
-/

namespace EnumInline.Text.CodeRange

/-- No range is empty, and each ends below the next one. -/
structure Ascend (ranges : List CodeRange) : Prop where
  nonempty : ∀ range ∈ ranges, range.first ≤ range.last
  separate : ranges.IsChain fun range next => range.last < next.first

instance {ranges : List CodeRange} : Decidable (Ascend ranges) :=
  decidable_of_iff
    ((∀ range ∈ ranges, range.first ≤ range.last) ∧
      ranges.IsChain fun range next => range.last < next.first)
    ⟨fun h => ⟨h.1, h.2⟩, fun h => ⟨h.1, h.2⟩⟩

variable {code : Nat} {range : CodeRange} {ranges : List CodeRange}

theorem Ascend.tail (h : Ascend (range :: ranges)) : Ascend ranges :=
  ⟨fun next hnext => h.nonempty next (List.mem_cons_of_mem _ hnext), h.separate.of_cons⟩

theorem Ascend.last_lt_first (h : Ascend (range :: ranges)) {other : CodeRange}
    (hother : other ∈ ranges) : range.last < other.first := by
  induction ranges generalizing range with
  | nil => cases hother
  | cons next rest ih =>
    have hnext : range.last < next.first := (List.isChain_cons_cons.1 h.separate).1
    rcases List.mem_cons.1 hother with rfl | hother
    · exact hnext
    · have hrest : next.last < other.first := ih h.tail hother
      have hnonempty : next.first ≤ next.last := h.nonempty next (by simp)
      omega

theorem covers_iff (h : Ascend ranges) :
    covers code ranges = true ↔ ∃ range ∈ ranges, range.first ≤ code ∧ code ≤ range.last := by
  induction ranges with
  | nil => simp [covers]
  | cons range rest ih =>
    have hnonempty : range.first ≤ range.last := h.nonempty range List.mem_cons_self
    rw [List.exists_mem_cons_iff, ← ih h.tail, covers]
    split
    next hbelow =>
      have hrest : ¬ covers code rest = true := by
        rw [ih h.tail]
        rintro ⟨other, hother, hfirst, -⟩
        have habove := h.last_lt_first hother
        omega
      refine iff_of_false Bool.false_ne_true (not_or_intro (fun hthis => ?_) hrest)
      omega
    next hfirst =>
      split
      next hlast => exact iff_of_true rfl (Or.inl ⟨Nat.not_lt.1 hfirst, hlast⟩)
      next hlast => exact (or_iff_right fun hthis => hlast hthis.2).symm

/-- The tables that the classes of characters are made of. -/
def tables : List (List CodeRange) :=
  [alphabeticRanges, numericRanges, wordRanges, nameStartRanges, nameContinueRanges]

theorem ascend_of_mem_tables (h : ranges ∈ tables) : Ascend ranges := by
  have hall : ∀ ranges ∈ tables, Ascend ranges := by decide +kernel
  exact hall ranges h

/-- A code point is found in a table just if it lies in one of the ranges. -/
theorem covers_iff_of_mem_tables (h : ranges ∈ tables) :
    covers code ranges = true ↔ ∃ range ∈ ranges, range.first ≤ code ∧ code ≤ range.last :=
  covers_iff (ascend_of_mem_tables h)

end EnumInline.Text.CodeRange
