import EnumInline.Markup.Matching
import EnumInline.Proofs.Text.Pieces
import Mathlib.Data.List.Forall2
import Mathlib.Data.List.TakeWhile

/-!
Patterns of text and how they are found. A pattern is a sequence of parts, in which only
single characters repeat. Where there is a choice, its possibilities are tried in order,
and the first counts with which the rest of the pattern goes on; a pattern is found at
the first place where it goes on to its end.
-/

namespace EnumInline.Markup

open Text

inductive Part where
  /-- One character of a class. -/
  | one (accepts : Char → Bool)
  /-- A character of a class, or nothing. -/
  | optional (accepts : Char → Bool)
  /-- Characters of a class, as many as the rest of the pattern allows. -/
  | many (accepts : Char → Bool)
  /-- Characters of a class, as few as the rest of the pattern allows. -/
  | few (accepts : Char → Bool)
  /-- A place with a word character on exactly one side. -/
  | boundary
  /-- A place to be told. -/
  | mark

abbrev Pattern := List Part

/-- A word given in lower case, in any case of its letters. -/
def Pattern.word (letters : String) : Pattern :=
  letters.toList.map fun letter => .one (isLetter letter)

namespace Pattern

/-- The number of characters of a class that stand together from a place on. -/
def runLength (text : List Char) (accepts : Char → Bool) (place : Nat) : Nat :=
  ((text.drop place).takeWhile accepts).length

/-- Whether a word character stands before a place. -/
def followsWord (text : List Char) (place : Nat) : Bool := (text.take place).getLast?.any isWord

/-- The places of the marks of a pattern, if it matches at a place. -/
def matchAt? (text : List Char) : Pattern → (place : Nat) → Option (List Nat)
  | [], _ => some []
  | .one accepts :: rest, place =>
      if text[place]?.any accepts then matchAt? text rest (place + 1) else none
  | .optional accepts :: rest, place =>
      (if text[place]?.any accepts then matchAt? text rest (place + 1) else none).or
        (matchAt? text rest place)
  | .many accepts :: rest, place =>
      (List.range (runLength text accepts place + 1)).reverse.findSome? fun count =>
        matchAt? text rest (place + count)
  | .few accepts :: rest, place =>
      (List.range (runLength text accepts place + 1)).findSome? fun count =>
        matchAt? text rest (place + count)
  | .boundary :: rest, place =>
      if followsWord text place != text[place]?.any isWord then matchAt? text rest place
      else none
  | .mark :: rest, place => (matchAt? text rest place).map (place :: ·)

/-- The places of the marks where a pattern is found in a text. -/
def find? (text : List Char) (pattern : Pattern) : Option (List Nat) :=
  (List.range (text.length + 1)).findSome? (matchAt? text pattern)

end Pattern

section Words

variable {letter : Char} {word spelled rest text : List Char}

/-- A text that begins with a word begins with a spelling of it. -/
theorem dropWord?_eq_some_iff :
    dropWord? word text = some rest ↔
      ∃ spelled, List.Forall₂ (fun letter c => isLetter letter c = true) word spelled ∧
        text = spelled ++ rest := by
  induction word generalizing text with
  | nil =>
    simp only [dropWord?, Option.some.injEq, List.forall₂_nil_left_iff, exists_eq_left,
      List.nil_append]
  | cons letter word ih =>
    cases text with
    | nil =>
      simp only [dropWord?, reduceCtorEq, false_iff]
      rintro ⟨spelled, hspelled, htext⟩
      cases hspelled with
      | cons _ _ => cases htext
    | cons c text =>
      cases hc : isLetter letter c with
      | false =>
        simp only [dropWord?, hc, Bool.false_eq_true, if_false, reduceCtorEq, false_iff]
        rintro ⟨spelled, hspelled, htext⟩
        cases hspelled with
        | cons hletter _ =>
          obtain ⟨rfl, -⟩ := List.cons.inj htext
          rw [hc] at hletter
          cases hletter
      | true =>
        simp only [dropWord?, hc, if_true, ih]
        constructor
        · rintro ⟨spelled, hspelled, rfl⟩
          exact ⟨c :: spelled, .cons hc hspelled, rfl⟩
        · rintro ⟨spelled, hspelled, htext⟩
          cases hspelled with
          | cons _ htail =>
            obtain ⟨-, rfl⟩ := List.cons.inj htext
            exact ⟨_, htail, rfl⟩

theorem drop_of_dropWord? (h : dropWord? word text = some rest) :
    rest = text.drop word.length ∧ word.length ≤ text.length := by
  obtain ⟨spelled, hspelled, rfl⟩ := dropWord?_eq_some_iff.1 h
  rw [hspelled.length_eq]
  exact ⟨List.drop_left.symm, by simp⟩

end Words

namespace Pattern

section Parts

variable {text : List Char} {rest : Pattern} {accepts : Char → Bool} {place count : Nat}
  {marks : List Nat}

theorem any_getElem?_eq (text : List Char) (place : Nat) (accepts : Char → Bool) :
    text[place]?.any accepts = (text.drop place).head?.any accepts := by
  rw [List.head?_drop]

theorem matchAt?_word (letters : String) :
    matchAt? text (word letters ++ rest) place =
      (dropWord? letters.toList (text.drop place)).bind fun _ =>
        matchAt? text rest (place + letters.toList.length) := by
  unfold word
  induction letters.toList generalizing place with
  | nil => rfl
  | cons letter word ih =>
    rw [List.map_cons, List.cons_append, matchAt?, any_getElem?_eq]
    cases hdrop : text.drop place with
    | nil => rfl
    | cons c tail =>
      have htail : text.drop (place + 1) = tail := drop_succ_of_drop_eq_cons hdrop
      rw [List.head?_cons, Option.any_some, dropWord?]
      split
      · rw [ih, htail, List.length_cons, Nat.add_assoc, Nat.add_comm 1]
      · rfl

/-- Inside a run stand characters of the class. -/
theorem any_of_lt_runLength (h : count < runLength text accepts place) :
    text[place + count]?.any accepts = true := by
  have haccepts : accepts ((text.drop place).takeWhile accepts)[count] = true :=
    List.mem_takeWhile_imp (List.getElem_mem h)
  have hsome : text[place + count]? =
      some ((text.drop place).takeWhile accepts)[count] := by
    rw [← List.getElem?_drop]
    conv => lhs; rw [← List.takeWhile_append_dropWhile (p := accepts) (l := text.drop place)]
    rw [List.getElem?_append_left h, List.getElem?_eq_getElem h]
  rwa [hsome, Option.any_some]

/-- A run is passed over as a whole, if the rest cannot go on inside of it. -/
theorem matchAt?_many
    (hrest : ∀ inside, text[inside]?.any accepts = true → matchAt? text rest inside = none) :
    matchAt? text (.many accepts :: rest) place =
      matchAt? text rest (place + runLength text accepts place) := by
  rw [matchAt?, List.range_succ, List.reverse_append, List.reverse_singleton,
    List.singleton_append, List.findSome?_cons]
  split
  next marks hmarks => exact hmarks.symm
  next hnone =>
    rw [hnone, List.findSome?_eq_none_iff]
    intro count hcount
    rw [List.mem_reverse, List.mem_range] at hcount
    exact hrest _ (any_of_lt_runLength hcount)

theorem matchAt?_few_of_rest (h : matchAt? text rest place = some marks) :
    matchAt? text (.few accepts :: rest) place = some marks := by
  rw [matchAt?, List.range_succ_eq_map, List.findSome?_cons, Nat.add_zero, h]

/-- Characters with which the rest cannot go on are passed over. -/
theorem matchAt?_few_skip (count : Nat)
    (hcount : runLength text accepts place = count + runLength text accepts (place + count))
    (hrest : ∀ other, other < count → matchAt? text rest (place + other) = none) :
    matchAt? text (.few accepts :: rest) place =
      matchAt? text (.few accepts :: rest) (place + count) := by
  have hnone : (List.range count).findSome? (fun other => matchAt? text rest (place + other)) =
      none := by
    rw [List.findSome?_eq_none_iff]
    exact fun other hother => hrest other (List.mem_range.1 hother)
  rw [matchAt?, matchAt?, hcount, Nat.add_assoc, List.range_add, List.findSome?_append, hnone,
    Option.none_or, List.findSome?_map]
  simp only [Function.comp_def, Nat.add_assoc]

theorem matchAt?_few_eq_none
    (h : ∀ count, matchAt? text rest (place + count) = none) :
    matchAt? text (.few accepts :: rest) place = none := by
  rw [matchAt?, List.findSome?_eq_none_iff]
  exact fun count _ => h count

end Parts

end Pattern

end EnumInline.Markup
