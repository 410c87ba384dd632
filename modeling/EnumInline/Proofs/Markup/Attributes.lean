import EnumInline.Proofs.Markup.ScriptBlocks
import Mathlib.Data.List.Infix

/-!
Script elements that are written out, with attributes that have their values in quotes. The
search takes the first closing bracket for the end of the opening tag, and a bracket in a
value is no exception. If no value has one, the body of the element is what is kept. If one
has, what stands behind it in the opening tag is neither an attribute nor blanked.
-/

namespace EnumInline.Markup

open Text Pattern

/-- An attribute with its value in quotes. -/
structure Attribute where
  name : List Char
  value : List Char
  bracket_not_mem_name : '>' ∉ name
  quote_not_mem_value : '"' ∉ value

namespace Attribute

def text (item : Attribute) : List Char :=
  ' ' :: item.name ++ '=' :: '"' :: item.value ++ ['"']

/-- The attribute names TypeScript as the language. -/
def IsLanguage (item : Attribute) : Prop :=
  item.name = "lang".toList ∧ (item.value = "ts".toList ∨ item.value = "tsx".toList)

end Attribute

def openingTag (attributes : List Attribute) : List Char :=
  "<script".toList ++ (attributes.flatMap Attribute.text ++ ['>'])

def closingTag : List Char := "</script>".toList

/-- The start of a closing tag stands nowhere in a text, in any case of its letters. -/
def NeverCloses (text : List Char) : Prop :=
  ∀ rest ∈ text.tails, dropWord? "</script".toList rest = none

instance : DecidablePred NeverCloses := fun text =>
  inferInstanceAs (Decidable (∀ rest ∈ text.tails, dropWord? "</script".toList rest = none))

instance : DecidablePred Attribute.IsLanguage := fun item =>
  inferInstanceAs (Decidable (item.name = "lang".toList ∧
    (item.value = "ts".toList ∨ item.value = "tsx".toList)))

section Bodies

variable {text rest before kept body : List Char}

theorem NeverCloses.of_append (h : NeverCloses (text ++ rest)) : NeverCloses rest := by
  intro suffix hsuffix
  rw [List.mem_tails] at hsuffix
  exact h suffix ((List.mem_tails _ _).2 (hsuffix.trans (List.suffix_append _ _)))

/-- A word without brackets that a text begins with ends before the first bracket. -/
theorem dropWord?_append_bracket {word : List Char}
    (hword : word.all (!isLetter · '<') = true) :
    dropWord? word (text ++ '<' :: rest) = (dropWord? word text).map (· ++ '<' :: rest) := by
  induction word generalizing text with
  | nil => rfl
  | cons letter word ih =>
    rw [List.all_cons, Bool.and_eq_true, Bool.not_eq_true'] at hword
    obtain ⟨hletter, hword⟩ := hword
    cases text with
    | nil => simp [dropWord?, hletter]
    | cons c text =>
      rw [List.cons_append, dropWord?, dropWord?, ih hword]
      split <;> rfl

/-- A text in which no closing tag starts does not make one with a bracket behind it. -/
theorem NeverCloses.closing?_append {c : Char} (h : NeverCloses (c :: text)) :
    Element.closing? (c :: text ++ '<' :: rest) = none := by
  have hword : "</script".toList = '<' :: "/script".toList := by decide
  have hletters : "/script".toList.all (!isLetter · '<') = true := by decide
  have hnone := h (c :: text) ((List.mem_tails _ _).2 List.suffix_rfl)
  rw [hword, dropWord?] at hnone
  rw [Element.closing?, hword, List.cons_append, dropWord?, dropWord?_append_bracket hletters]
  split at hnone
  next hc => rw [if_pos hc, hnone]; rfl
  next hc => rw [if_neg hc]; rfl

theorem closing?_closingTag : Element.closing? closingTag = some (closingTag, []) := by decide

theorem cutAtClosing?_append {fuel : Nat} (h : NeverCloses text) (hfuel : text.length < fuel) :
    Element.cutAtClosing? fuel (text ++ closingTag) = some (text, closingTag, []) := by
  induction fuel generalizing text with
  | zero => omega
  | succ fuel ih =>
    have htag : closingTag = '<' :: "/script>".toList := by decide
    unfold Element.cutAtClosing?
    dsimp only
    rcases forall_or_exists_stop (· != '<') text with
      hrun | ⟨run, stop, rest, rfl, hrun, hstop⟩
    · have hhead : closingTag.head? = some '<' := by decide
      have hstop : ∀ c, closingTag.head? = some c → (c != '<') = false := by
        simp [hhead]
      rw [takeWhile_append_of_stop hrun hstop, List.drop_left, htag]
      dsimp only
      rw [← htag, closing?_closingTag]
    · obtain rfl : stop = '<' := by simpa using hstop
      have hstop : ∀ c, ('<' :: (rest ++ closingTag)).head? = some c → (c != '<') = false := by
        simp
      have hrest := h.of_append
      rw [List.append_assoc, List.cons_append, takeWhile_append_of_stop hrun hstop, List.drop_left]
      dsimp only
      rw [htag, ← List.cons_append, hrest.closing?_append]
      dsimp only
      rw [← htag, ih (NeverCloses.of_append (List.append_cons _ _ _ ▸ h)) ?_]
      · rfl
      · rw [List.length_append, List.length_cons] at hfuel
        omega

/-- An element goes from the first closing bracket of its opening tag to the first closing
tag. -/
theorem read?_append (hbefore : '>' ∉ before) (hword : before.head?.any isWord = false)
    (h : NeverCloses kept) :
    Element.read? ("<script".toList ++ (before ++ '>' :: (kept ++ closingTag))) =
      some (⟨"<script".toList, before, kept, closingTag⟩, []) := by
  have hdrop : dropWord? "<script".toList
      ("<script".toList ++ (before ++ '>' :: (kept ++ closingTag))) =
        some (before ++ '>' :: (kept ++ closingTag)) :=
    dropWord?_eq_some_iff.2 ⟨_, by decide, rfl⟩
  have hhead : (before ++ '>' :: (kept ++ closingTag)).head?.any isWord = false := by
    cases before with
    | nil =>
      have hbracket : isWord '>' = false := by decide +kernel
      exact hbracket
    | cons c before => exact hword
  have hrun : ∀ c ∈ before, (c != '>') = true := fun c hc => by
    rw [bne_iff_ne]
    exact fun heq => hbefore (heq ▸ hc)
  have hstop : ∀ c, ('>' :: (kept ++ closingTag)).head? = some c → (c != '>') = false := by
    simp
  unfold Element.read?
  rw [hdrop, Option.bind_some, hhead, takeWhile_append_of_stop hrun hstop]
  dsimp only
  rw [if_neg Bool.false_ne_true, List.drop_left]
  dsimp only
  rw [cutAtClosing?_append h (by rw [List.length_append]; omega)]
  rfl

/-- What is kept of one element. -/
theorem extract?_append (hbefore : '>' ∉ before) (hword : before.head?.any isWord = false)
    (h : NeverCloses kept) :
    ScriptBlocks.extract? ("<script".toList ++ (before ++ '>' :: (kept ++ closingTag))) =
      (languageIn? before).map fun language =>
        ⟨blanked ("<script".toList ++ (before ++ ['>'])) ++ kept ++ blanked closingTag,
          Script.hasElements language⟩ := by
  have hread := read?_append hbefore hword h
  have hopening : "<script".toList = '<' :: "script".toList := by decide
  have hnil (fuel : Nat) : pieces fuel [] = [.plain []] := by cases fuel <;> rfl
  have hpieces (fuel : Nat) :
      pieces (fuel + 1) ("<script".toList ++ (before ++ '>' :: (kept ++ closingTag))) =
        [.plain [], .element ⟨"<script".toList, before, kept, closingTag⟩, .plain []] := by
    rw [hopening, List.cons_append] at hread ⊢
    simp only [pieces, List.takeWhile_cons, bne_self_eq_false, Bool.false_eq_true, if_false,
      List.length_nil, List.drop_zero, hread, hnil]
  have hscript : Element.script? ⟨"<script".toList, before, kept, closingTag⟩ =
      (languageIn? before).map Script.hasElements := by
    rw [languageIn?_eq]
    rfl
  rw [ScriptBlocks.extract?, hpieces]
  simp only [List.filterMap_cons, List.filterMap_nil, List.flatMap_cons, List.flatMap_nil,
    Piece.script?, Piece.script, hscript]
  cases languageIn? before with
  | none => rfl
  | some language =>
    simp only [Option.map_some, List.isEmpty_cons, Bool.false_eq_true, if_false,
      Option.isSome_some, if_true, List.any_cons, List.any_nil, Bool.or_false, id_eq, blanked,
      List.map_append, List.map_cons, List.map_nil, List.append_nil, List.nil_append,
      List.append_assoc, List.cons_append]
    rfl

end Bodies

section Languages

variable {text before after : List Char}

/-- A language is found behind a blank. -/
theorem isSome_language?_append (h : (Element.languageHere? text).isSome = true)
    (afterWord : Bool) :
    (Element.language? afterWord (before ++ ' ' :: text)).isSome = true := by
  induction before generalizing afterWord with
  | nil =>
    have hblank : isWord ' ' = false := by decide +kernel
    cases text with
    | nil => cases h
    | cons c rest =>
      rw [List.nil_append, Element.language?, hblank, Option.isSome_or, Element.language?,
        Option.isSome_or, if_neg Bool.false_ne_true, h, Bool.true_or, Bool.or_true]
  | cons c before ih =>
    rw [List.cons_append, Element.language?, Option.isSome_or, ih, Bool.or_true]

/-- Attributes that name TypeScript as the language are found to. -/
theorem isSome_languageIn? {attributes : List Attribute}
    (h : ∃ item ∈ attributes, item.IsLanguage) :
    (languageIn? (attributes.flatMap Attribute.text)).isSome = true := by
  obtain ⟨item, hitem, hname, hvalue⟩ := h
  obtain ⟨before, after, rfl⟩ := List.append_of_mem hitem
  have hhere : (Element.languageHere? ("lang".toList ++ '=' :: '"' :: (item.value ++
      '"' :: after.flatMap Attribute.text))).isSome = true := by
    rcases hvalue with hvalue | hvalue <;> rw [hvalue] <;> rfl
  rw [languageIn?_eq, List.flatMap_append, List.flatMap_cons, Attribute.text, hname]
  simpa using isSome_language?_append hhere false

theorem append_tag (word before kept body tag : List Char) :
    word ++ (before ++ '>' :: kept) ++ body ++ tag =
      word ++ (before ++ '>' :: (kept ++ body ++ tag)) := by
  simp

theorem any_isWord_of_openingTag {attributes : List Attribute}
    (h : ∃ item ∈ attributes, item.IsLanguage)
    (hopening : openingTag attributes = "<script".toList ++ (before ++ '>' :: after)) :
    before.head?.any isWord = false := by
  have hblank : isWord ' ' = false := by decide +kernel
  have hrest : attributes.flatMap Attribute.text ++ ['>'] = before ++ '>' :: after :=
    List.append_cancel_left hopening
  obtain ⟨more, hmore⟩ : ∃ more, attributes.flatMap Attribute.text = ' ' :: more := by
    obtain ⟨item, hitem, -⟩ := h
    cases attributes with
    | nil => cases hitem
    | cons item attributes => exact ⟨_, rfl⟩
  rw [hmore, List.cons_append] at hrest
  cases before with
  | nil =>
    obtain ⟨hc, -⟩ := List.cons.inj hrest
    exact absurd hc (by decide)
  | cons c before =>
    obtain ⟨rfl, -⟩ := List.cons.inj hrest
    exact hblank

/-- The opening tag ends at its first closing bracket. -/
theorem extract?_openingTag {attributes : List Attribute} {kept body : List Char}
    (h : ∃ item ∈ attributes, item.IsLanguage)
    (hopening : openingTag attributes = "<script".toList ++ (before ++ '>' :: kept))
    (hbefore : '>' ∉ before) (hkept : NeverCloses (kept ++ body)) :
    ScriptBlocks.extract? (openingTag attributes ++ body ++ closingTag) =
      (languageIn? before).map fun language =>
        ⟨blanked ("<script".toList ++ (before ++ ['>'])) ++ (kept ++ body) ++
          blanked closingTag, Script.hasElements language⟩ := by
  have hword := any_isWord_of_openingTag h hopening
  rw [hopening, append_tag]
  exact extract?_append hbefore hword hkept

end Languages

/-- What is kept of an element with attributes. Without closing brackets in the values
it is the body. With one, the opening tag ends there: what stands behind it is kept with the
body, and the language has to stand before it. -/
theorem extract_attributes (attributes : List Attribute) (body : List Char)
    (hlanguage : ∃ item ∈ attributes, item.IsLanguage) (hbody : NeverCloses body) :
    ((∀ item ∈ attributes, '>' ∉ item.value) →
      ∃ blocks,
        ScriptBlocks.extract? (openingTag attributes ++ body ++ closingTag) = some blocks ∧
        blocks.text = blanked (openingTag attributes) ++ body ++ blanked closingTag) ∧
    ∀ before kept, openingTag attributes = "<script".toList ++ (before ++ '>' :: kept) →
      '>' ∉ before → NeverCloses (kept ++ body) →
      ScriptBlocks.extract? (openingTag attributes ++ body ++ closingTag) =
        (languageIn? before).map fun language =>
          ⟨blanked ("<script".toList ++ (before ++ ['>'])) ++ (kept ++ body) ++
            blanked closingTag, Script.hasElements language⟩ := by
  refine ⟨fun hvalues => ?_, fun _ _ => extract?_openingTag hlanguage⟩
  have hbracket : '>' ∉ attributes.flatMap Attribute.text := by
    rw [List.mem_flatMap]
    rintro ⟨item, hitem, hmem⟩
    have hname := item.bracket_not_mem_name
    have hvalue := hvalues item hitem
    simp [Attribute.text, hname, hvalue] at hmem
  obtain ⟨language, hfound⟩ := Option.isSome_iff_exists.1 (isSome_languageIn? hlanguage)
  have hextract := @extract?_openingTag _ _ [] _ hlanguage rfl hbracket hbody
  rw [hfound] at hextract
  exact ⟨_, hextract, rfl⟩

/-- The body of an element is kept. -/
theorem extract_attributes_colors :
    let lang : Attribute := ⟨"lang".toList, "ts".toList, by decide, by decide⟩
    let setup : Attribute := ⟨"setup".toList, "é < 3".toList, by decide, by decide⟩
    let body := "\nconst enum Color { Red }\n".toList
    (∃ item ∈ [setup, lang], item.IsLanguage) ∧ NeverCloses body ∧
      ∃ blocks, ScriptBlocks.extract? (openingTag [setup, lang] ++ body ++ closingTag) =
          some blocks ∧
        blocks.text = blanked (openingTag [setup, lang]) ++ body ++ blanked closingTag := by
  intro lang setup body
  have hlanguage : ∃ item ∈ [setup, lang], item.IsLanguage := by decide
  have hbody : NeverCloses body := by decide
  exact ⟨hlanguage, hbody, (extract_attributes _ body hlanguage hbody).1 (by decide)⟩

/-- The end of the opening tag is kept if a value has a bracket, and nothing is if the
language stands behind that. -/
theorem extract_attributes_generic :
    let lang : Attribute := ⟨"lang".toList, "ts".toList, by decide, by decide⟩
    let generic : Attribute :=
      ⟨"generic".toList, "T extends Foo<U>".toList, by decide, by decide⟩
    let body := "\nconst enum E { A }\n".toList
    (lang.IsLanguage ∧ NeverCloses body) ∧
      (ScriptBlocks.extract? (openingTag [lang, generic] ++ body ++ closingTag)).map
          ScriptBlocks.text =
        some (blanked "<script lang=\"ts\" generic=\"T extends Foo<U>".toList ++
          "\">".toList ++ body ++ blanked closingTag) ∧
      (ScriptBlocks.extract? (openingTag [lang, generic] ++ body ++ closingTag)).map
          ScriptBlocks.text ≠
        some (blanked (openingTag [lang, generic]) ++ body ++ blanked closingTag) ∧
      ScriptBlocks.extract? (openingTag [generic, lang] ++ body ++ closingTag) = none := by
  intro lang generic body
  exact ⟨by decide, by decide +kernel, by decide +kernel, by decide +kernel⟩

end EnumInline.Markup
