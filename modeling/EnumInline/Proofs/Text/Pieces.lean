import EnumInline.Text.Pieces
import Mathlib.Data.List.Basic

/-!
The pieces of a text between separators, said without cutting it. A text without a
separator is its only piece; of any other, what stands before the first separator is
one, and the pieces behind it are the others.
-/

namespace EnumInline.Text

section Runs

variable {inClass : Char → Bool} {run rest : List Char}

theorem takeWhile_append_of_stop (hrun : ∀ c ∈ run, inClass c = true)
    (hstop : ∀ c, rest.head? = some c → inClass c = false) :
    (run ++ rest).takeWhile inClass = run := by
  rw [List.takeWhile_append_of_pos hrun]
  cases rest with
  | nil => simp
  | cons c rest => simp [hstop c rfl]

/-- A text is one run, or it is cut by the first character that is not in the class. -/
theorem forall_or_exists_stop (inClass : Char → Bool) (text : List Char) :
    (∀ c ∈ text, inClass c = true) ∨
      ∃ run stop rest, text = run ++ stop :: rest ∧ (∀ c ∈ run, inClass c = true) ∧
        inClass stop = false := by
  cases hfound : text.find? fun c => !inClass c with
  | none =>
    left
    intro c hc
    simpa using List.find?_eq_none.1 hfound c hc
  | some stop =>
    obtain ⟨hstop, run, rest, htext, hrun⟩ := List.find?_eq_some_iff_append.1 hfound
    refine Or.inr ⟨run, stop, rest, htext, fun c hc => ?_, ?_⟩
    · simpa using hrun c hc
    · simpa using hstop

theorem drop_length_takeWhile (inClass : Char → Bool) (text : List Char) :
    text.drop (text.takeWhile inClass).length = text.dropWhile inClass := by
  conv => lhs; arg 2; rw [← List.takeWhile_append_dropWhile (p := inClass) (l := text)]
  exact List.drop_left

/-- Behind the character at a place stands what follows it. -/
theorem drop_succ_of_drop_eq_cons {text : List Char} {place : Nat} {c : Char}
    (h : text.drop place = c :: rest) : text.drop (place + 1) = rest := by
  rw [List.drop_add_one_eq_tail_drop, h, List.tail_cons]

/-- What ends a run is not in the class. -/
theorem stop_of_drop_takeWhile {text : List Char} {stop : Char}
    (h : text.drop (text.takeWhile inClass).length = stop :: rest) : inClass stop = false := by
  have hhead := List.head?_dropWhile_not inClass text
  rwa [← drop_length_takeWhile, h] at hhead

end Runs

section Ends

variable {start ending rest stem text : List Char}

theorem dropStart?_eq_some_iff : dropStart? start text = some rest ↔ text = start ++ rest := by
  unfold dropStart?
  split
  case isTrue h =>
    obtain ⟨behind, rfl⟩ := List.isPrefixOf_iff_prefix.1 h
    simp
  case isFalse h =>
    simp only [reduceCtorEq, false_iff]
    rintro rfl
    exact h (List.isPrefixOf_iff_prefix.2 (List.prefix_append _ _))

theorem dropEnd?_eq_some_iff : dropEnd? ending text = some stem ↔ text = stem ++ ending := by
  unfold dropEnd?
  split
  case isTrue h =>
    obtain ⟨before, rfl⟩ := List.isSuffixOf_iff_suffix.1 h
    simp
  case isFalse h =>
    simp only [reduceCtorEq, false_iff]
    rintro rfl
    exact h (List.isSuffixOf_iff_suffix.2 (List.suffix_append _ _))

theorem dropEnd?_eq_none_iff : dropEnd? ending text = none ↔ ¬ ending <:+ text := by
  unfold dropEnd?
  rw [← List.isSuffixOf_iff_suffix]
  split <;> simp_all

end Ends

section Cuts

variable {mark : Char} {text before after : List Char}

theorem cutAt?_eq_none_iff : cutAt? mark text = none ↔ mark ∉ text := by
  induction text with
  | nil => simp [cutAt?]
  | cons c rest ih =>
    unfold cutAt?
    split
    case isTrue h => simp [h]
    case isFalse h => simp [ih, Ne.symm h]

/-- A text is cut around the first mark in it. -/
theorem cutAt?_eq_some_iff :
    cutAt? mark text = some (before, after) ↔ mark ∉ before ∧ text = before ++ mark :: after := by
  induction text generalizing before after with
  | nil => simp [cutAt?]
  | cons c rest ih =>
    unfold cutAt?
    split
    case isTrue h =>
      subst h
      cases before with
      | nil => simp
      | cons d before => simp +contextual
    case isFalse h =>
      cases before with
      | nil => simp [h]
      | cons d before =>
        simp only [Option.map_eq_some_iff, Prod.exists, ih]
        constructor
        · rintro ⟨front, behind, ⟨hmark, hrest⟩, heq⟩
          cases heq
          exact ⟨by simp [hmark, Ne.symm h], by simp [hrest]⟩
        · rintro ⟨hmark, heq⟩
          obtain ⟨rfl, hrest⟩ := List.cons.inj heq
          exact ⟨before, after, ⟨fun hmem => hmark (List.mem_cons_of_mem _ hmem), hrest⟩, rfl⟩

end Cuts

variable {separates : Char → Bool} {mark : Char} {first piece rest text : List Char}

/-- No character of the text separates. -/
def IsWhole (separates : Char → Bool) (text : List Char) : Prop :=
  ∀ c ∈ text, separates c = false

theorem splitWhere_of_isWhole (h : IsWhole separates text) :
    splitWhere separates text = [text] := by
  induction text with
  | nil => rfl
  | cons c rest ih =>
    obtain ⟨hc, hrest⟩ := List.forall_mem_cons.1 h
    simp only [splitWhere, hc, ih hrest, Bool.false_eq_true, if_false]

theorem splitWhere_append_cons (h : IsWhole separates first) (hmark : separates mark = true) :
    splitWhere separates (first ++ mark :: rest) = first :: splitWhere separates rest := by
  induction first with
  | nil => simp only [List.nil_append, splitWhere, hmark, if_true]
  | cons c first ih =>
    obtain ⟨hc, hfirst⟩ := List.forall_mem_cons.1 h
    simp only [List.cons_append, splitWhere, hc, ih hfirst, Bool.false_eq_true, if_false]

theorem splitWhere_ne_nil : splitWhere separates text ≠ [] := by
  cases text with
  | nil => simp [splitWhere]
  | cons c rest =>
    unfold splitWhere
    split
    · simp
    · split <;> simp

/-- A separator cuts a text into two, whose pieces are those of the whole. -/
theorem splitWhere_append_mark (hmark : separates mark = true) :
    splitWhere separates (text ++ mark :: rest) =
      splitWhere separates text ++ splitWhere separates rest := by
  induction text with
  | nil => simp only [List.nil_append, splitWhere, hmark, if_true, List.singleton_append]
  | cons c text ih =>
    simp only [List.cons_append, splitWhere, ih]
    split
    · rfl
    · cases hpieces : splitWhere separates text with
      | nil => exact absurd hpieces splitWhere_ne_nil
      | cons piece pieces => rfl

/-- Texts without separators are the pieces of the text that they make up. -/
theorem splitWhere_intercalate {pieces : List (List Char)} (hmark : separates mark = true)
    (hne : pieces ≠ []) (h : ∀ piece ∈ pieces, IsWhole separates piece) :
    splitWhere separates (List.intercalate [mark] pieces) = pieces := by
  induction pieces with
  | nil => exact absurd rfl hne
  | cons piece rest ih =>
    obtain ⟨hpiece, hrest⟩ := List.forall_mem_cons.1 h
    cases rest with
    | nil => rw [List.intercalate_singleton, splitWhere_of_isWhole hpiece]
    | cons next rest =>
      rw [List.intercalate_cons_cons, List.append_assoc, List.singleton_append,
        splitWhere_append_cons hpiece hmark, ih (by simp) hrest]

/-- What is added to a text without a separator is added to its last piece. -/
theorem exists_splitWhere_append (separates : Char → Bool) (text : List Char) :
    ∃ pieces last, ∀ ending, IsWhole separates ending →
      splitWhere separates (text ++ ending) = pieces ++ [last ++ ending] := by
  induction text with
  | nil => exact ⟨[], [], fun ending hending => splitWhere_of_isWhole hending⟩
  | cons c text ih =>
    obtain ⟨pieces, last, hsplit⟩ := ih
    cases hc : separates c with
    | true =>
      refine ⟨[] :: pieces, last, fun ending hending => ?_⟩
      simp only [List.cons_append, splitWhere, hc, if_true, hsplit ending hending]
    | false =>
      cases pieces with
      | nil =>
        refine ⟨[], c :: last, fun ending hending => ?_⟩
        simp [splitWhere, hc, hsplit ending hending]
      | cons piece pieces =>
        refine ⟨(c :: piece) :: pieces, last, fun ending hending => ?_⟩
        simp [splitWhere, hc, hsplit ending hending]

/-- A part of a text without separators that reaches, on either side, up to one or to the
end of the text. -/
structure IsPiece (separates : Char → Bool) (text piece : List Char) : Prop where
  whole : IsWhole separates piece
  between : ∃ before after, text = before ++ (piece ++ after) ∧
    (∀ c, before.getLast? = some c → separates c = true) ∧
    ∀ c, after.head? = some c → separates c = true

theorem isPiece_of_isWhole (h : IsWhole separates text) :
    IsPiece separates text piece ↔ piece = text := by
  constructor
  · rintro ⟨-, before, after, rfl, hbefore, hafter⟩
    rcases before.eq_nil_or_concat with rfl | ⟨front, c, rfl⟩
    · cases after with
      | nil => simp
      | cons c behind =>
        have hc := h c (by simp)
        rw [hafter c rfl] at hc
        cases hc
    · have hc := h c (by simp)
      rw [hbefore c (by simp)] at hc
      cases hc
  · rintro rfl
    exact ⟨h, [], [], by simp⟩

/-- The pieces of a text that is cut at its first separator. -/
theorem isPiece_append_cons (h : IsWhole separates first) (hmark : separates mark = true) :
    IsPiece separates (first ++ mark :: rest) piece ↔
      piece = first ∨ IsPiece separates rest piece := by
  constructor
  · rintro ⟨hpiece, before, after, htext, hbefore, hafter⟩
    cases hlast : before.getLast? with
    | none =>
      -- the piece stands at the start, and the first separator ends it
      obtain rfl := List.getLast?_eq_none_iff.1 hlast
      have hrun : (piece ++ after).takeWhile (!separates ·) = piece :=
        takeWhile_append_of_stop (by simpa [IsWhole] using hpiece) (by simpa using hafter)
      have hrun' : (first ++ mark :: rest).takeWhile (!separates ·) = first :=
        takeWhile_append_of_stop (by simpa [IsWhole] using h) (by simpa using hmark)
      rw [htext, List.nil_append, hrun] at hrun'
      exact Or.inl hrun'
    | some c =>
      -- the piece stands behind a separator, and the first one is not behind that
      have hc : separates c = true := hbefore c hlast
      have hmem : c ∈ before := List.mem_of_getLast? hlast
      have hnot : c ∉ first := fun hfirst => by
        rw [h c hfirst] at hc
        cases hc
      rcases List.append_eq_append_iff.1 htext with ⟨behind, rfl, hrest⟩ | ⟨behind, rfl, -⟩
      · cases behind with
        | nil =>
          rw [List.append_nil] at hmem
          exact absurd hmem hnot
        | cons d behind =>
          obtain ⟨rfl, rfl⟩ := List.cons.inj hrest
          refine Or.inr ⟨hpiece, behind, after, rfl, fun d hd => hbefore d ?_, hafter⟩
          simp [List.getLast?_cons, hd]
      · exact absurd (List.mem_append_left _ hmem) hnot
  · rintro (rfl | ⟨hpiece, before, after, rfl, hbefore, hafter⟩)
    · refine ⟨h, [], mark :: rest, by simp, by simp, ?_⟩
      simpa using hmark
    · refine ⟨hpiece, first ++ mark :: before, after, by simp, fun c hc => ?_, hafter⟩
      cases hlast : before.getLast? with
      | none =>
        obtain rfl : mark = c := by simpa [List.getLast?_cons, hlast] using hc
        exact hmark
      | some d =>
        obtain rfl : d = c := by simpa [List.getLast?_cons, hlast] using hc
        exact hbefore d hlast

theorem mem_splitWhere : piece ∈ splitWhere separates text ↔ IsPiece separates text piece := by
  induction hlength : text.length using Nat.strongRecOn generalizing text with
  | _ length ih =>
    rcases forall_or_exists_stop (!separates ·) text with
      hwhole | ⟨first, mark, rest, rfl, hfirst, hmark⟩
    · have hwhole : IsWhole separates text := fun c hc => by simpa using hwhole c hc
      rw [splitWhere_of_isWhole hwhole, isPiece_of_isWhole hwhole, List.mem_singleton]
    · have hfirst : IsWhole separates first := fun c hc => by simpa using hfirst c hc
      have hmark : separates mark = true := by simpa using hmark
      have hshorter : rest.length < length := by
        rw [← hlength, List.length_append, List.length_cons]
        omega
      rw [splitWhere_append_cons hfirst hmark, List.mem_cons, ih _ hshorter rfl,
        isPiece_append_cons hfirst hmark]

end EnumInline.Text
