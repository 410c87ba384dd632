/-!
Character classes given as ascending ranges of code points. Membership walks the ranges and
stops at the first one that begins above the character.
-/

namespace EnumInline.Text

/-- The code points from `first` to `last`, both included. -/
structure CodeRange where
  first : Nat
  last : Nat
  deriving Repr, DecidableEq

namespace CodeRange

/-- Membership in a list of ascending, separate ranges. -/
def covers (code : Nat) : List CodeRange → Bool
  | [] => false
  | range :: rest =>
      if code < range.first then false
      else if code ≤ range.last then true
      else covers code rest

/-- Whether each range lies in one of others; both lists ascend. -/
def within (inner : List CodeRange) : List CodeRange → Bool
  | [] => inner.isEmpty
  | range :: rest =>
      let left := inner.dropWhile fun other =>
        range.first ≤ other.first && other.last ≤ range.last
      range.first ≤ range.last && left.head?.all (range.last < ·.first) && within left rest

theorem covers_dropWhile {code : Nat} {inner : List CodeRange} (range : CodeRange)
    (h : covers code inner = true) :
    (range.first ≤ code ∧ code ≤ range.last) ∨
      covers code (inner.dropWhile fun other =>
        range.first ≤ other.first && other.last ≤ range.last) = true := by
  induction inner with
  | nil => cases h
  | cons other rest ih =>
    rw [List.dropWhile_cons]
    split
    next hother =>
      have hother : range.first ≤ other.first ∧ other.last ≤ range.last := by
        simpa using hother
      unfold covers at h
      split at h
      · cases h
      · split at h
        · exact Or.inl (by omega)
        · exact ih h
    next => exact Or.inr h

theorem covers_of_within {code : Nat} {inner ranges : List CodeRange}
    (hwithin : within inner ranges = true) (h : covers code inner = true) :
    covers code ranges = true := by
  induction ranges generalizing inner with
  | nil =>
    obtain rfl := List.isEmpty_iff.1 hwithin
    exact h
  | cons range rest ih =>
    simp only [within, Bool.and_eq_true, decide_eq_true_eq] at hwithin
    obtain ⟨⟨hrange, hleft⟩, hrest⟩ := hwithin
    unfold covers
    rcases covers_dropWhile range h with ⟨hfirst, hlast⟩ | hcovers
    · rw [if_neg (by omega), if_pos hlast]
    · have hbehind := ih hrest hcovers
      have habove : range.last < code := by
        revert hleft hcovers
        cases List.dropWhile _ inner with
        | nil => exact fun _ hcovers => nomatch hcovers
        | cons other left =>
          intro hleft hcovers
          have hother : range.last < other.first := by simpa using hleft
          unfold covers at hcovers
          split at hcovers
          · cases hcovers
          · omega
      rw [if_neg (by omega), if_neg (by omega)]
      exact hbehind

end CodeRange

end EnumInline.Text
