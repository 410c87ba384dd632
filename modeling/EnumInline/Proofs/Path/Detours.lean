import EnumInline.Proofs.Path.Canonical

/-!
What the normal spelling of a path leaves out. On the way along a path, each segment stays at a
place, enters one or leaves one, and the spelling is made of the segments that were entered and not
left again. Every other segment is on a detour.
-/

namespace EnumInline.Path

open Text

variable {absolute : Bool} {path segment : List Char} {stack segments : List (List Char)}

/-- The segments of a path, whichever slashes stand between them. -/
def rawSegments (path : List Char) : List (List Char) := splitWhere (· == '/') (withSlashes path)

def isRooted (path : List Char) : Bool := (withSlashes path).head? == some '/'

/-- Some part of the way leads from one place back to another. -/
def ComesBack (absolute : Bool) (outer place way : List (List Char)) : Prop :=
  ∃ part, part <+: way ∧ part.foldl (follow absolute) place = outer

/-- The segment is not entered, or the way behind it leads back to where it was entered from. -/
def IsDetour (absolute : Bool) (stack : List (List Char)) (segment : List Char)
    (behind : List (List Char)) : Prop :=
  follow absolute stack segment ≠ segment :: stack ∨
    ComesBack absolute stack (segment :: stack) behind

/-- A segment of the path is on a detour. -/
def Discards (path segment : List Char) : Prop :=
  ∃ before behind, rawSegments path = before ++ segment :: behind ∧
    IsDetour (isRooted path) (before.foldl (follow (isRooted path)) []) segment behind

/-- A segment stays, enters or leaves. -/
theorem follow_cases (absolute : Bool) (stack : List (List Char)) (segment : List Char) :
    follow absolute stack segment = stack ∨ follow absolute stack segment = segment :: stack ∨
      follow absolute stack segment = stack.tail := by
  unfold follow
  split
  case isTrue => exact .inl rfl
  case isFalse =>
    split
    case isFalse => exact .inr (.inl rfl)
    case isTrue =>
      cases stack with
      | nil => cases absolute <;> simp
      | cons last outer =>
        dsimp only
        split
        case isTrue => exact .inr (.inr rfl)
        case isFalse => cases absolute <;> simp

theorem subset_of_mem_follow {other : List Char} (h : other ∈ follow absolute stack segment) :
    other = segment ∨ other ∈ stack := by
  rcases follow_cases absolute stack segment with hstays | henters | hleaves
  · exact .inr (hstays ▸ h)
  · exact List.mem_cons.1 (henters ▸ h)
  · exact .inr (List.mem_of_mem_tail (hleaves ▸ h))

/-- Nothing is spelled that is not on the way. -/
theorem mem_of_mem_foldl_follow (h : segment ∈ segments.foldl (follow absolute) stack) :
    segment ∈ segments ∨ segment ∈ stack := by
  induction segments generalizing stack with
  | nil => exact .inr h
  | cons first rest ih =>
    rcases ih h with hrest | hfirst
    · exact .inl (List.mem_cons_of_mem _ hrest)
    · rcases subset_of_mem_follow hfirst with rfl | hstack
      · exact .inl List.mem_cons_self
      · exact .inr hstack

theorem ComesBack.cons {outer place way : List (List Char)}
    (h : ComesBack absolute outer (follow absolute place segment) way) :
    ComesBack absolute outer place (segment :: way) := by
  obtain ⟨part, hpart, hback⟩ := h
  exact ⟨segment :: part, List.cons_prefix_cons.2 ⟨rfl, hpart⟩, hback⟩

/-- What has been entered is still there in the end, unless the way comes back from it. -/
theorem suffix_or_comesBack (top : List (List Char)) :
    segment :: stack <:+ segments.foldl (follow absolute) (top ++ segment :: stack) ∨
      ComesBack absolute stack (top ++ segment :: stack) segments := by
  induction segments generalizing top with
  | nil => exact .inl (List.suffix_append _ _)
  | cons next rest ih =>
    apply Or.imp_right ComesBack.cons
    rw [List.foldl_cons]
    rcases follow_cases absolute (top ++ segment :: stack) next with hstays | henters | hleaves
    · rw [hstays]
      exact ih top
    · rw [henters]
      exact ih (next :: top)
    · rw [hleaves]
      cases top with
      | cons last top => exact ih top
      | nil => exact .inr ⟨[], List.nil_prefix, rfl⟩

theorem segmentsOf_normalizeChars (path : List Char) :
    segmentsOf (normalizeChars path) =
      ((rawSegments path).foldl (follow (isRooted path)) []).reverse := by
  have hsegments : ∀ segment ∈ places (isRooted path) (withSlashes path), IsSegment segment :=
    fun segment hsegment => isSettled_places.isSegment segment (List.mem_reverse.2 hsegment)
  exact segmentsOf_spell hsegments

/-- Of the segments of a path, its normal spelling has those that are not on detours. -/
theorem mem_rawSegments_iff :
    segment ∈ rawSegments path ↔
      segment ∈ segmentsOf (normalizeChars path) ∨ Discards path segment := by
  rw [segmentsOf_normalizeChars, List.mem_reverse]
  constructor
  · intro hsegment
    obtain ⟨before, behind, hraw⟩ := List.append_of_mem hsegment
    by_cases henters : follow (isRooted path) (before.foldl (follow (isRooted path)) []) segment =
        segment :: before.foldl (follow (isRooted path)) []
    case neg => exact .inr ⟨before, behind, hraw, .inl henters⟩
    rcases suffix_or_comesBack [] with hthere | hback
    · left
      rw [hraw, List.foldl_append, List.foldl_cons, henters]
      exact hthere.subset List.mem_cons_self
    · exact .inr ⟨before, behind, hraw, .inr hback⟩
  · rintro (hspelled | ⟨before, behind, hraw, -⟩)
    · exact (mem_of_mem_foldl_follow hspelled).resolve_right List.not_mem_nil
    · rw [hraw]
      exact List.mem_append_right _ List.mem_cons_self

end EnumInline.Path
