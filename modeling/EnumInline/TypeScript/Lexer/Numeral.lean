import EnumInline.Double.Reading
import EnumInline.TypeScript.Token

/-!
Numerals. Digits may be set apart by single underscores; a leading zero before another digit is a
fault, and so is an underscore that does not stand between two digits.
-/

namespace EnumInline.TypeScript

open Text

namespace Numeral

def isDigitOrSeparator (radix : Nat) (c : Char) : Bool :=
  c == '_' || (Double.digitValue? radix c).isSome

/-- Whether each underscore stands between two digits; `afterDigit` tells what comes before. -/
def separated : (afterDigit : Bool) → List Char → Bool
  | _, [] => true
  | _, ['_'] => false
  | afterDigit, '_' :: rest => afterDigit && separated false rest
  | _, _ :: rest => separated true rest

/-- Reads a run of digits; a misplaced underscore is a fault at the start of the run. -/
def digits (radix : Nat) (here : Cursor) : Piece (List Char) :=
  let (run, next) := here.run (isDigitOrSeparator radix)
  ⟨run.filter (· != '_'), next, if separated false run then [] else [here.offset]⟩

/-- A name must not follow a numeral at once. -/
def closed (piece : Piece Token) : Except Nat (Piece Token) :=
  if piece.next.rest.head?.any startsName then .error piece.next.offset else .ok piece

def radixPrefix? : List Char → Option Nat
  | '0' :: mark :: _ =>
      if mark == 'x' || mark == 'X' then some 16
      else if mark == 'o' || mark == 'O' then some 8
      else if mark == 'b' || mark == 'B' then some 2
      else none
  | _ => none

def readRadix (radix : Nat) (here : Cursor) : Except Nat (Piece Token) :=
  let run := digits radix (here.skip 2)
  if run.value.isEmpty then .error (here.offset + 2)
  else if run.next.rest.head? = some 'n' then .ok ⟨.bigint, run.next.skip 1, run.faults⟩
  else closed ⟨.number (Double.ofRadix radix run.value), run.next, run.faults⟩

def readExponent (here : Cursor) : Except Nat (Piece Int) :=
  match here.rest with
  | mark :: rest =>
      if mark == 'e' || mark == 'E' then
        let signed := rest.head? = some '-' ∨ rest.head? = some '+'
        let run := digits 10 (here.skip (if signed then 2 else 1))
        if run.value.isEmpty then .error (run.next.offset)
        else
          let size : Int := Double.wholeOfDigits run.value
          .ok ⟨if rest.head? = some '-' then -size else size, run.next, run.faults⟩
      else .ok ⟨0, here, []⟩
  | [] => .ok ⟨0, here, []⟩

def readDecimal (here : Cursor) : Except Nat (Piece Token) := do
  let whole := digits 10 here
  let legacy := here.rest.head? == some '0' && here.offset + 1 < whole.next.offset
  let faults := (if legacy then [here.offset] else []) ++ whole.faults
  if whole.next.rest.head? = some 'n' ∧ ¬ whole.value.isEmpty then
    return ⟨.bigint, whole.next.skip 1, faults⟩
  let fraction :=
    if whole.next.rest.head? = some '.' then digits 10 (whole.next.skip 1)
    else ⟨[], whole.next, []⟩
  let exponent ← readExponent fraction.next
  let value := Double.ofParts false whole.value fraction.value exponent.value
  closed ⟨.number value, exponent.next, faults ++ fraction.faults ++ exponent.faults⟩

/-- Reads the numeral that starts here, at a digit or at a point before a digit. -/
def read (here : Cursor) : Except Nat (Piece Token) :=
  match radixPrefix? here.rest with
  | some radix => readRadix radix here
  | none => readDecimal here

theorem eq_of_closed {piece found : Piece Token} (h : closed piece = .ok found) :
    found = piece := by
  unfold closed at h
  split at h
  · cases h
  · exact (Except.ok.inj h).symm

theorem isSpelled_of_read {here : Cursor} {found : Piece Token} (h : read here = .ok found) :
    found.value.IsSpelled := by
  unfold read at h
  split at h
  next radix _ =>
    unfold readRadix at h
    dsimp only at h
    split at h
    · cases h
    split at h
    · cases h
      trivial
    · rw [eq_of_closed h]
      exact Double.isUnsigned_ofRadix _ _
  next =>
    unfold readDecimal at h
    dsimp only at h
    split at h
    · cases h
      trivial
    · simp only [bind, Except.bind] at h
      split at h
      · cases h
      · rw [eq_of_closed h]
        exact Double.isUnsigned_ofDecimal _ _

end Numeral

end EnumInline.TypeScript
