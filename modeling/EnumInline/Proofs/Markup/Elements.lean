import EnumInline.Markup.Element
import EnumInline.Proofs.Markup.Pattern

/-!
Script elements are what one pattern matches, and their language is what another one
finds in their attributes.
-/

namespace EnumInline.Markup

open Text

namespace Pattern

/-- A closing tag of a script element. -/
def closing : Pattern := word "</script" ++ [.many isBlank, .one (· == '>'), .mark]

/-- A script element. The marks are its start, both ends of its attributes, both ends of
its body, and its end. -/
def script : Pattern :=
  .mark :: (word "<script" ++ (.boundary :: .mark :: .many (· != '>') :: .mark ::
    .one (· == '>') :: .mark :: .few (fun _ => true) :: .mark :: closing))

def isQuote (c : Char) : Bool := c == '"' || c == '\''

/-- The name of the language, which may stand in quotes. The marks are both ends of it. -/
def named : Pattern :=
  .optional isQuote :: .mark :: (word "ts" ++ [.optional (isLetter 'x'), .mark,
    .optional isQuote])

/-- What names the language of an element in its attributes. -/
def language : Pattern :=
  .boundary :: (word "lang" ++ (.many isBlank :: .one (· == '=') :: .many isBlank :: named))

end Pattern

open Pattern

variable {text : List Char} {place : Nat}

theorem any_of_disjoint {accepts other : Char → Bool}
    (h : ∀ c, accepts c = true → other c = false) {found : Option Char}
    (hfound : found.any accepts = true) : found.any other = false := by
  cases found with
  | none => cases hfound
  | some c => exact h c hfound

theorem ne_bracket_of_isBlank (c : Char) (h : isBlank c = true) : (c == '>') = false := by
  rw [beq_eq_false_iff_ne]
  rintro rfl
  revert h
  decide

theorem matchAt?_closing :
    matchAt? text closing place =
      (Element.closing? (text.drop place)).map fun found => [place + found.1.length] := by
  unfold closing Element.closing?
  rw [matchAt?_word]
  cases hdrop : dropWord? "</script".toList (text.drop place) with
  | none => rfl
  | some rest =>
    obtain ⟨hrest, hlength⟩ := drop_of_dropWord? hdrop
    have hword : "</script".toList.length = 8 := by decide
    rw [hword] at hrest hlength ⊢
    have hmany : matchAt? text [.many isBlank, .one (· == '>'), .mark] (place + 8) =
        matchAt? text [.one (· == '>'), .mark]
          (place + 8 + (rest.takeWhile isBlank).length) := by
      rw [hrest, List.drop_drop]
      apply matchAt?_many
      intro inside hinside
      rw [matchAt?, any_of_disjoint ne_bracket_of_isBlank hinside]
      rfl
    rw [Option.bind_some, Option.bind_some, hmany, matchAt?, any_getElem?_eq, ← List.drop_drop,
      ← List.drop_drop, ← hrest]
    have htake : ((text.drop place).take 8).length = 8 := by
      rw [List.length_take, Nat.min_eq_left hlength]
    dsimp only
    cases rest.drop (rest.takeWhile isBlank).length with
    | nil => rfl
    | cons c after =>
      by_cases hc : c = '>'
      · subst hc
        simp [matchAt?, htake, Nat.add_assoc]
      · simp [hc]

/-- A word that begins with a bracket has no other spelling of it. -/
theorem dropWord?_bracket {word rest : List Char} {c : Char} (hc : c ≠ '<') :
    dropWord? ('<' :: word) (c :: rest) = none := by
  have hupper : '<'.toUpper = '<' := by decide
  simp [dropWord?, isLetter, hupper, hc]

theorem closing?_eq_none {text : List Char} (h : text.head? ≠ some '<') :
    Element.closing? text = none := by
  cases text with
  | nil => rfl
  | cons c rest =>
    have hc : c ≠ '<' := fun hc => h (by rw [hc]; rfl)
    have hword : "</script".toList = '<' :: "/script".toList := by decide
    rw [Element.closing?, hword, dropWord?_bracket hc]
    rfl

theorem matchAt?_mark_closing (text : List Char) (place : Nat) :
    matchAt? text (.mark :: closing) place =
      (Element.closing? (text.drop place)).map fun found => [place, place + found.1.length] := by
  rw [matchAt?, matchAt?_closing, Option.map_map]
  rfl

/-- What lies before the next bracket is passed over. -/
theorem matchAt?_mark_closing_of_lt {count : Nat}
    (hcount : count < ((text.drop place).takeWhile (· != '<')).length) :
    matchAt? text (.mark :: closing) (place + count) = none := by
  have hother := any_of_lt_runLength hcount
  rw [matchAt?_mark_closing, closing?_eq_none, Option.map_none]
  intro hhead
  rw [any_getElem?_eq, hhead] at hother
  cases hother

theorem runLength_all (text : List Char) (place : Nat) :
    runLength text (fun _ => true) place = text.length - place := by
  rw [runLength, List.takeWhile_eq_self_iff.2 fun _ _ => rfl, List.length_drop]

/-- The body of an element goes up to the first closing tag. -/
theorem matchAt?_body (fuel : Nat) (hfuel : (text.drop place).length < fuel) :
    matchAt? text (.few (fun _ => true) :: .mark :: closing) place =
      (Element.cutAtClosing? fuel (text.drop place)).map fun found =>
        [place + found.1.length, place + found.1.length + found.2.1.length] := by
  induction fuel generalizing place with
  | zero => omega
  | succ fuel ih =>
    have hprefix := (List.takeWhile_prefix (l := text.drop place) (· != '<')).length_le
    rw [List.length_drop] at hprefix hfuel
    rw [matchAt?_few_skip _ (by rw [runLength_all, runLength_all]; omega)
      fun other hother => matchAt?_mark_closing_of_lt hother]
    unfold Element.cutAtClosing?
    dsimp only
    generalize (text.drop place).takeWhile (· != '<') = before at hprefix ⊢
    rw [List.drop_drop]
    cases hdrop : text.drop (place + before.length) with
    | nil =>
      apply matchAt?_few_eq_none
      intro count
      rw [matchAt?_mark_closing, ← List.drop_drop, hdrop, List.drop_nil]
      rfl
    | cons c rest =>
      have hhere := matchAt?_mark_closing text (place + before.length)
      rw [hdrop] at hhere
      cases hclosing : Element.closing? (c :: rest) with
      | some found =>
        rw [hclosing] at hhere
        simp only [hclosing]
        exact matchAt?_few_of_rest hhere
      | none =>
        rw [hclosing] at hhere
        have hrest : text.drop (place + before.length + 1) = rest :=
          drop_succ_of_drop_eq_cons hdrop
        have hlength := congrArg List.length hdrop
        rw [List.length_drop, List.length_cons] at hlength
        rw [matchAt?_few_skip 1 (by rw [runLength_all, runLength_all]; omega)
          (fun other hother => by rwa [Nat.lt_one_iff.1 hother]), ih (by rw [hrest]; omega),
          hrest]
        simp only [hclosing, Option.map_map]
        congr 1
        funext found
        simp [Nat.add_assoc, Nat.add_comm, Nat.add_left_comm]

/-- The places of a script element in a text. -/
structure Script where
  start : Nat
  attributesStart : Nat
  attributesStop : Nat
  bodyStart : Nat
  bodyStop : Nat
  stop : Nat
  deriving DecidableEq, Repr

/-- The places as the pattern of script elements marks them. -/
def Script.marks (script : Script) : List Nat :=
  [script.start, script.attributesStart, script.attributesStop, script.bodyStart,
    script.bodyStop, script.stop]

/-- The places of an element that starts at a place. -/
def Element.scriptAt (element : Element) (place : Nat) : Script :=
  let attributesStart := place + element.opening.length
  let attributesStop := attributesStart + element.attributes.length
  let bodyStop := attributesStop + 1 + element.body.length
  ⟨place, attributesStart, attributesStop, attributesStop + 1, bodyStop,
    bodyStop + element.closing.length⟩

/-- The letters at which the words of the patterns meet a boundary are word characters. -/
theorem isWord_of_isLetter {letter c : Char} (hletter : letter = 't' ∨ letter = 'l')
    (h : isLetter letter c = true) : isWord c = true := by
  have hcase : c = letter ∨ c = letter.toUpper := by
    rcases hletter with rfl | rfl <;> simpa [isLetter] using h
  rcases hletter with rfl | rfl <;> rcases hcase with rfl | rfl <;> decide +kernel

theorem exists_getLast?_of_forall₂ {related : Char → Char → Prop} {word spelled : List Char}
    (letter : Char) (h : List.Forall₂ related word spelled)
    (hlast : word.getLast? = some letter) :
    ∃ c, spelled.getLast? = some c ∧ related letter c := by
  rw [← List.head?_reverse] at hlast ⊢
  rw [← List.forall₂_reverse_iff] at h
  cases hword : word.reverse with
  | nil =>
    rw [hword] at hlast
    cases hlast
  | cons first more =>
    rw [hword] at h hlast
    obtain ⟨c, rest, hc, -, hspelled⟩ := List.forall₂_cons_left_iff.1 h
    rw [hspelled]
    exact ⟨c, rfl, Option.some.inj hlast ▸ hc⟩

/-- The word that opens an element ends in a word character. -/
theorem followsWord_of_dropWord? {rest : List Char}
    (h : dropWord? "<script".toList (text.drop place) = some rest) :
    followsWord text (place + 7) = true := by
  obtain ⟨spelled, hspelled, htext⟩ := dropWord?_eq_some_iff.1 h
  have hlength : spelled.length = 7 := hspelled.length_eq.symm
  obtain ⟨c, hlast, hletter⟩ := exists_getLast?_of_forall₂ 't' hspelled (by decide)
  have htake : text.take (place + 7) = text.take place ++ spelled := by
    rw [List.take_add, htext, ← hlength, List.take_left]
  rw [followsWord, htake, List.getLast?_append, hlast]
  exact isWord_of_isLetter (Or.inl rfl) hletter

/-- The attributes of an element go up to the first closing bracket. -/
theorem matchAt?_attributes {rest : Pattern} {attributes : List Char}
    (hattributes : (text.drop place).takeWhile (· != '>') = attributes) :
    matchAt? text (.many (· != '>') :: .mark :: .one (· == '>') :: rest) place =
      match text.drop (place + attributes.length) with
      | [] => none
      | _ :: _ => (matchAt? text rest (place + attributes.length + 1)).map fun marks =>
          (place + attributes.length) :: marks := by
  subst hattributes
  have hinside (inside : Nat) (h : text[inside]?.any (· != '>') = true) :
      matchAt? text (.mark :: .one (· == '>') :: rest) inside = none := by
    rw [matchAt?, matchAt?, any_of_disjoint (fun c hc => by simpa using hc) h]
    rfl
  rw [matchAt?_many hinside, runLength, matchAt?, matchAt?, any_getElem?_eq]
  cases hdrop : text.drop (place + ((text.drop place).takeWhile (· != '>')).length) with
  | nil => rfl
  | cons c inner =>
    rw [← List.drop_drop] at hdrop
    have hstop : c = '>' := by simpa using stop_of_drop_takeWhile hdrop
    subst hstop
    rfl

theorem matchAt?_script (text : List Char) (place : Nat) :
    matchAt? text script place =
      (Element.read? (text.drop place)).map fun found => (found.1.scriptAt place).marks := by
  unfold script Element.read?
  rw [matchAt?, matchAt?_word]
  cases hdrop : dropWord? "<script".toList (text.drop place) with
  | none => rfl
  | some rest =>
    obtain ⟨hrest, hlength⟩ := drop_of_dropWord? hdrop
    have hword : "<script".toList.length = 7 := by decide
    rw [hword, List.drop_drop] at hrest
    rw [hword] at hlength ⊢
    have hboundary := followsWord_of_dropWord? hdrop
    rw [Option.bind_some, Option.bind_some, matchAt?, hboundary, any_getElem?_eq, ← hrest]
    cases hword : rest.head?.any isWord with
    | true => rfl
    | false =>
      simp only [Bool.true_bne, Bool.not_false, if_true, Bool.false_eq_true, if_false]
      rw [matchAt?, matchAt?_attributes rfl, ← List.drop_drop, ← hrest]
      cases hinner : rest.drop (rest.takeWhile (· != '>')).length with
      | nil => rfl
      | cons c inner =>
        rw [hrest, List.drop_drop] at hinner
        have hplace := drop_succ_of_drop_eq_cons hinner
        rw [← hrest] at hplace
        dsimp only
        rw [matchAt?, matchAt?_body (inner.length + 1) (by rw [hplace]; omega), hplace]
        have htake : ((text.drop place).take 7).length = 7 := by
          rw [List.length_take, Nat.min_eq_left hlength]
        simp only [Option.map_map]
        congr 1
        funext found
        simp only [Function.comp_apply, Element.scriptAt, Script.marks, htake]

/-- The part of a text between two places. -/
def between (text : List Char) : List Nat → List Char
  | [start, stop] => (text.take stop).drop start
  | _ => []

theorem matchAt?_name :
    (matchAt? text (.mark :: (word "ts" ++ [.optional (isLetter 'x'), .mark, .optional isQuote]))
        place).map (between text) =
      (dropWord? "ts".toList (text.drop place)).map fun rest =>
        if rest.head?.any (isLetter 'x') then (text.drop place).take 3
        else (text.drop place).take 2 := by
  rw [matchAt?, matchAt?_word]
  cases hdrop : dropWord? "ts".toList (text.drop place) with
  | none => rfl
  | some rest =>
    obtain ⟨hrest, -⟩ := drop_of_dropWord? hdrop
    have hword : "ts".toList.length = 2 := by decide
    rw [hword, List.drop_drop] at hrest
    have hquote (behind : Nat) : matchAt? text [.mark, .optional isQuote] behind =
        some [behind] := by
      simp only [matchAt?]
      split <;> rfl
    rw [hword, Option.bind_some, matchAt?, any_getElem?_eq, ← hrest, hquote, hquote]
    cases hx : rest.head?.any (isLetter 'x') with
    | true => simp [hx, between, List.drop_take, Nat.add_assoc]
    | false => simp [hx, between, List.drop_take]

theorem matchAt?_name_eq_none {rest : Pattern} (h : text[place]?.any (isLetter 't') = false) :
    matchAt? text (.mark :: (word "ts" ++ rest)) place = none := by
  have hword : "ts".toList = ['t', 's'] := by decide
  rw [matchAt?, word, hword, List.map_cons, List.cons_append, matchAt?, h]
  rfl

theorem isLetter_t_of_isQuote (c : Char) (h : isQuote c = true) : isLetter 't' c = false := by
  have hcase : c = '"' ∨ c = '\'' := by simpa [isQuote] using h
  rcases hcase with rfl | rfl <;> decide

theorem matchAt?_named :
    (matchAt? text named place).map (between text) =
      let here := match text.drop place with
        | '"' :: rest | '\'' :: rest => rest
        | _ => text.drop place
      (dropWord? "ts".toList here).map fun rest =>
        if rest.head?.any (isLetter 'x') then here.take 3 else here.take 2 := by
  rw [named, matchAt?, any_getElem?_eq]
  cases hdrop : text.drop place with
  | nil =>
    rw [List.head?_nil, Option.any_none, if_neg Bool.false_ne_true, Option.none_or, matchAt?_name,
      hdrop]
  | cons c rest =>
    rw [List.head?_cons, Option.any_some]
    cases hc : isQuote c with
    | true =>
      have hplace : text.drop (place + 1) = rest := drop_succ_of_drop_eq_cons hdrop
      have hnone : text[place]?.any (isLetter 't') = false := by
        rw [any_getElem?_eq, hdrop]
        exact isLetter_t_of_isQuote c hc
      rw [if_pos rfl, matchAt?_name_eq_none hnone, Option.or_none, matchAt?_name, hplace]
      have hcase : c = '"' ∨ c = '\'' := by simpa [isQuote] using hc
      rcases hcase with rfl | rfl <;> rfl
    | false =>
      rw [if_neg Bool.false_ne_true, Option.none_or, matchAt?_name, hdrop]
      have hother : c ≠ '"' ∧ c ≠ '\'' := by simpa [isQuote] using hc
      split
      next heq => exact absurd (List.cons.inj heq).1 hother.1
      next heq => exact absurd (List.cons.inj heq).1 hother.2
      next => rfl

/-- A class of a few characters holds no blank if none of them is one. -/
theorem eq_false_of_isBlank {accepts : Char → Bool} (spelled : List Char)
    (haccepts : ∀ c, accepts c = true → c ∈ spelled)
    (hspelled : spelled.all (!isBlank ·) = true) (c : Char) (h : isBlank c = true) :
    accepts c = false := by
  apply Bool.eq_false_iff.2
  intro hc
  have hnone := List.all_eq_true.1 hspelled c (haccepts c hc)
  rw [h] at hnone
  cases hnone

theorem isQuote_of_isBlank : ∀ c, isBlank c = true → isQuote c = false :=
  eq_false_of_isBlank ['"', '\''] (fun c hc => by simpa [isQuote] using hc) (by decide)

theorem isLetter_t_of_isBlank : ∀ c, isBlank c = true → isLetter 't' c = false :=
  eq_false_of_isBlank ['t', 't'.toUpper] (fun c hc => by simpa [isLetter] using hc) (by decide)

theorem equals_of_isBlank : ∀ c, isBlank c = true → (c == '=') = false :=
  eq_false_of_isBlank ['='] (fun c hc => by simpa using hc) (by decide)

theorem drop_runLength (accepts : Char → Bool) :
    text.drop (place + runLength text accepts place) = (text.drop place).dropWhile accepts := by
  rw [← List.drop_drop, runLength, drop_length_takeWhile]

theorem matchAt?_afterEquals :
    (matchAt? text (.many isBlank :: named) place).map (between text) =
      Element.languageAfterEquals? (text.drop place) := by
  have hinside (inside : Nat) (h : text[inside]?.any isBlank = true) :
      matchAt? text named inside = none := by
    rw [named, matchAt?, any_of_disjoint isQuote_of_isBlank h, if_neg Bool.false_ne_true,
      Option.none_or, matchAt?_name_eq_none (any_of_disjoint isLetter_t_of_isBlank h)]
  rw [matchAt?_many hinside, matchAt?_named, drop_runLength]
  unfold Element.languageAfterEquals? trimStart
  dsimp only
  congr 1
  funext rest
  cases rest with
  | nil => rfl
  | cons c rest => rfl

theorem matchAt?_equals :
    (matchAt? text (.many isBlank :: .one (· == '=') :: .many isBlank :: named) place).map
        (between text) =
      match trimStart (text.drop place) with
      | '=' :: rest => Element.languageAfterEquals? rest
      | _ => none := by
  have hinside (inside : Nat) (h : text[inside]?.any isBlank = true) :
      matchAt? text (.one (· == '=') :: .many isBlank :: named) inside = none := by
    rw [matchAt?, any_of_disjoint equals_of_isBlank h]
    rfl
  rw [matchAt?_many hinside, matchAt?, any_getElem?_eq, drop_runLength, trimStart]
  cases hequals : (text.drop place).dropWhile isBlank with
  | nil => rfl
  | cons c behind =>
    rw [← drop_runLength] at hequals
    rw [List.head?_cons, Option.any_some]
    by_cases hc : c = '='
    · subst hc
      rw [if_pos (by decide), matchAt?_afterEquals, drop_succ_of_drop_eq_cons hequals]
      rfl
    · rw [if_neg (by simpa using hc)]
      split
      next heq => exact absurd (List.cons.inj heq).1 hc
      next => rfl

theorem matchAt?_language (text : List Char) (place : Nat) :
    (matchAt? text language place).map (between text) =
      if followsWord text place then none else Element.languageHere? (text.drop place) := by
  rw [language, matchAt?, matchAt?_word]
  unfold Element.languageHere?
  cases hdrop : dropWord? "lang".toList (text.drop place) with
  | none => simp
  | some rest =>
    obtain ⟨hrest, -⟩ := drop_of_dropWord? hdrop
    rw [List.drop_drop] at hrest
    have hletter : text[place]?.any isWord = true := by
      have hword : "lang".toList = ['l', 'a', 'n', 'g'] := by decide
      obtain ⟨spelled, hspelled, htext⟩ := dropWord?_eq_some_iff.1 hdrop
      rw [hword] at hspelled
      obtain ⟨c, more, hc, -, rfl⟩ := List.forall₂_cons_left_iff.1 hspelled
      rw [any_getElem?_eq, htext]
      exact isWord_of_isLetter (Or.inr rfl) hc
    rw [hletter, Option.bind_some, Option.bind_some]
    cases followsWord text place with
    | true => rfl
    | false =>
      rw [Bool.false_bne, if_pos rfl, if_neg Bool.false_ne_true, hrest]
      exact matchAt?_equals

theorem followsWord_succ {c : Char} {rest : List Char} (h : text.drop place = c :: rest) :
    followsWord text (place + 1) = isWord c := by
  rw [followsWord, List.take_add, h, List.getLast?_append]
  rfl

theorem map_findSome?_language {count : Nat} (hcount : text.length + 1 = place + count) :
    ((List.range' place count).findSome? (matchAt? text language)).map (between text) =
      Element.language? (followsWord text place) (text.drop place) := by
  induction count generalizing place with
  | zero =>
    rw [List.drop_eq_nil_of_le (by omega)]
    rfl
  | succ count ih =>
    have hrest := @ih (place + 1) (by omega)
    have hhere := matchAt?_language text place
    rw [List.range'_succ, List.findSome?_cons]
    cases hdrop : text.drop place with
    | nil =>
      have hnil : text.drop (place + 1) = [] := by
        rw [← List.drop_drop, hdrop, List.drop_nil]
      have hnone : Element.languageHere? [] = none := rfl
      rw [hdrop, hnone, ite_self, Option.map_eq_none_iff] at hhere
      rw [hhere]
      rw [hnil] at hrest
      exact hrest
    | cons c rest =>
      have hplace : text.drop (place + 1) = rest := drop_succ_of_drop_eq_cons hdrop
      rw [followsWord_succ hdrop, hplace] at hrest
      rw [hdrop] at hhere
      rw [Element.language?, ← hrest, ← hhere]
      cases matchAt? text language place <;> rfl

/-- The language that attributes name, if it is TypeScript. -/
def languageIn? (attributes : List Char) : Option (List Char) :=
  (find? attributes language).map (between attributes)

theorem languageIn?_eq (attributes : List Char) :
    languageIn? attributes = Element.language? false attributes := by
  rw [languageIn?, find?, List.range_eq_range', map_findSome?_language (by omega)]
  rfl

end EnumInline.Markup
