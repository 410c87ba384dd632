import EnumInline.TypeScript.Lexer.Escape

/-!
Names in source text. A name may spell its characters as escapes by code.
-/

namespace EnumInline.TypeScript

open Text

structure Name where
  text : List Char
  escaped : Bool

namespace Name

/-- Reads a name on from `soFar`; `fuel` bounds the number of escapes. -/
private def extend : Nat → Name → Cursor → Except Nat (Name × Cursor)
  | 0, soFar, here => .ok (soFar, here)
  | fuel + 1, soFar, here =>
      let (plain, after) := here.run continuesName
      let text := soFar.text ++ plain
      match after.rest with
      | '\\' :: rest => do
          let escape ← Escape.unicode (after.offset + 1) rest
          let fits : Char → Bool := if text.isEmpty then startsName else continuesName
          if escape.text.length = 1 ∧ escape.text.all fits then
            extend fuel ⟨text ++ escape.text, true⟩ (after.skip (escape.length + 1))
          else .error after.offset
      | _ => .ok (⟨text, soFar.escaped⟩, after)

def read (here : Cursor) : Except Nat (Name × Cursor) :=
  let (plain, after) := here.run continuesName
  match after.rest with
  | '\\' :: _ => extend after.rest.length ⟨plain, false⟩ after
  | _ => .ok (⟨plain, false⟩, after)

variable {soFar found : Name} {here next : Cursor}

theorem isSourceName_extend {fuel : Nat} (h : extend fuel soFar here = .ok (found, next))
    (hsoFar : isSourceName soFar.text = true) : isSourceName found.text = true := by
  induction fuel generalizing soFar here with
  | zero =>
    cases h
    exact hsoFar
  | succ fuel ih =>
    have hplain : isSourceName (soFar.text ++ (here.run continuesName).1) = true :=
      isSourceName_append hsoFar List.all_takeWhile
    have hfilled : (soFar.text ++ (here.run continuesName).1).isEmpty = false :=
      List.isEmpty_eq_false_iff.2 (ne_nil_of_isSourceName hplain)
    unfold extend at h
    dsimp only at h
    split at h
    next rest hrest =>
      cases hescape : Escape.unicode ((here.run continuesName).2.offset + 1) rest with
      | error fault =>
        rw [hescape] at h
        cases h
      | ok escape =>
        rw [hescape] at h
        simp only [bind, Except.bind, hfilled, Bool.false_eq_true, if_false] at h
        split at h
        next hfits => exact ih h (isSourceName_append hplain hfits.2)
        next => cases h
    next =>
      cases h
      exact hplain

theorem isSourceName_of_read (h : read here = .ok (found, next)) {c : Char}
    {rest : List Char} (hhere : here.rest = c :: rest)
    (hc : startsName c = true ∨ c = '\\') : isSourceName found.text = true := by
  unfold read at h
  dsimp only at h
  rcases hc with hc | rfl
  · have hplain : isSourceName (here.run continuesName).1 = true := by
      rw [Cursor.run, hhere, List.takeWhile_cons, if_pos (continuesName_of_startsName hc)]
      have hfirst : isSourceName [c] = true := by simp [isSourceName, hc]
      exact isSourceName_append hfirst List.all_takeWhile
    split at h
    next => exact isSourceName_extend h hplain
    next =>
      cases h
      exact hplain
  · have hrun : here.run continuesName = ([], here) := by
      have hslash : continuesName '\\' = false := by decide +kernel
      rw [Cursor.run, hhere, List.takeWhile_cons, hslash]
      simp [Cursor.skip]
    simp only [hrun, hhere, List.length_cons] at h
    unfold extend at h
    simp only [hrun, hhere, List.append_nil] at h
    cases hescape : Escape.unicode (here.offset + 1) rest with
    | error fault =>
      rw [hescape] at h
      cases h
    | ok escape =>
      rw [hescape] at h
      simp only [bind, Except.bind, List.isEmpty_nil, if_true, List.nil_append] at h
      split at h
      next hfits =>
        obtain ⟨c, hescape⟩ := List.length_eq_one_iff.1 hfits.1
        refine isSourceName_extend h ?_
        rw [hescape] at hfits ⊢
        simpa [isSourceName] using hfits
      next => cases h

end Name

end EnumInline.TypeScript
