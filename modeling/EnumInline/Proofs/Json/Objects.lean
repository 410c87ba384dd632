import Mathlib.Data.List.Forall2
import EnumInline.Json.Object
import EnumInline.Proofs.Json.Strings

/-!
Objects as JSON reads them. Blanks may stand in front of every mark, name and value, and a comma
stands between two members only. A reader takes a value off the front of a text whatever stands
behind it, so that the readers of the parts make up that of an object, and of objects of objects.
-/

namespace EnumInline.Json

/-- The characters that may stand between the parts of a JSON text. -/
def isBlank (c : Char) : Bool := c == ' ' || c == '\n' || c == '\r' || c == '\t'

/-- What stands behind a mark with which the text begins, blanks apart. -/
def behind? (mark : Char) (text : List Char) : Option (List Char) :=
  match text.dropWhile isBlank with
  | c :: rest => if c == mark then some rest else none
  | [] => none

theorem behind?_cons {mark : Char} (h : isBlank mark = false) (rest : List Char) :
    behind? mark (mark :: rest) = some rest := by
  rw [behind?, List.dropWhile_cons_of_neg (ne_true_of_eq_false h)]
  exact if_pos (beq_self_eq_true mark)

theorem behind?_blank {c : Char} (h : isBlank c = true) (mark : Char) (text : List Char) :
    behind? mark (c :: text) = behind? mark text := by
  rw [behind?, List.dropWhile_cons_of_pos h]
  rfl

theorem behind?_blanks {blanks : List Char} (h : blanks.all isBlank = true) (mark : Char)
    (text : List Char) : behind? mark (blanks ++ text) = behind? mark text := by
  induction blanks with
  | nil => rfl
  | cons c blanks ih =>
    obtain ⟨hc, hblanks⟩ := (Bool.and_eq_true _ _).mp (List.all_cons ▸ h)
    exact (behind?_blank hc mark _).trans (ih hblanks)

theorem dropWhile_of_behind? {mark : Char} {text rest : List Char}
    (h : behind? mark text = some rest) : text.dropWhile isBlank = mark :: rest := by
  unfold behind? at h
  split at h
  case h_1 c tail hdrop =>
    split at h
    case isTrue hmark =>
      rw [hdrop, eq_of_beq hmark, Option.some.inj h]
    case isFalse => cases h
  case h_2 => cases h

/-- A text begins with one mark. -/
theorem behind?_eq_none {mark other : Char} {text rest : List Char}
    (h : behind? mark text = some rest) (hne : mark ≠ other) : behind? other text = none := by
  rw [behind?, dropWhile_of_behind? h]
  exact if_neg (mt eq_of_beq hne)

theorem behind?_shorter {mark : Char} {text rest : List Char}
    (h : behind? mark text = some rest) : rest.length < text.length := by
  have hle : (text.dropWhile isBlank).length ≤ text.length :=
    (List.dropWhile_suffix isBlank).length_le
  rw [dropWhile_of_behind? h, List.length_cons] at hle
  exact hle

theorem prepend_eq_some {c : Char} {answer : Option (List Char × List Char)}
    {text rest : List Char} (h : prepend c answer = some (text, rest)) :
    ∃ tail, answer = some (tail, rest) := by
  obtain ⟨⟨tail, behind⟩, hanswer, heq⟩ := Option.map_eq_some_iff.1 h
  obtain ⟨-, rfl⟩ := Prod.mk.inj heq
  exact ⟨tail, hanswer⟩

/-- The closing quote is read at least. -/
theorem read?_shorter {text value rest : List Char} (h : read? text = some (value, rest)) :
    rest.length < text.length := by
  fun_induction read? text generalizing value with
  | case1 behind =>
    obtain ⟨-, rfl⟩ := Prod.mk.inj (Option.some.inj h)
    exact Nat.lt_succ_self _
  | case2 a b c d behind ihsecond ihplain =>
    simp only [List.length_cons]
    obtain ⟨code, -, h⟩ := Option.bind_eq_some_iff.1 h
    split at h
    case isTrue => cases h
    split at h
    case isTrue =>
      -- the second half of a character stands in an escape of its own
      split at h
      case h_1 behind _ =>
        obtain ⟨other, -, h⟩ := Option.bind_eq_some_iff.1 h
        split at h
        case isTrue =>
          obtain ⟨tail, htail⟩ := prepend_eq_some h
          have hshorter : rest.length < behind.length := ihsecond htail
          simp only [List.length_cons]
          omega
        case isFalse => cases h
      case h_2 => cases h
    case isFalse =>
      obtain ⟨tail, htail⟩ := prepend_eq_some h
      have hshorter : rest.length < behind.length := ihplain htail
      omega
  | case3 letter behind _ ih =>
    obtain ⟨c, -, h⟩ := Option.bind_eq_some_iff.1 h
    obtain ⟨tail, htail⟩ := prepend_eq_some h
    exact Nat.lt_succ_of_lt (Nat.lt_succ_of_lt (ih htail))
  | case4 => cases h
  | case5 c behind _ _ _ _ ih =>
    obtain ⟨tail, htail⟩ := prepend_eq_some h
    exact Nat.lt_succ_of_lt (ih htail)
  | case6 => cases h

/-- A reader takes a value off the front of a text. It takes something, and does not see blanks in
front of it. -/
structure Reader (α : Type) where
  run : List Char → Option (α × List Char)
  shorter : ∀ {text value rest}, run text = some (value, rest) → rest.length < text.length
  blank : ∀ {c}, isBlank c = true → ∀ text, run (c :: text) = run text

namespace Reader

variable {α : Type} {value : Reader α} {text rest inner : List Char}

def string : Reader (List Char) where
  run text := (behind? '"' text).bind read?
  shorter h := by
    obtain ⟨behind, hbehind, hread⟩ := Option.bind_eq_some_iff.1 h
    exact Nat.lt_trans (read?_shorter hread) (behind?_shorter hbehind)
  blank hc text := by rw [behind?_blank hc]

/-- A name, a colon and a value. -/
def member (value : Reader α) : Reader (List Char × α) where
  run text :=
    (string.run text).bind fun (name, rest) =>
      ((behind? ':' rest).bind value.run).map fun (content, rest) => ((name, content), rest)
  shorter h := by
    obtain ⟨⟨name, rest⟩, hname, hvalue⟩ := Option.bind_eq_some_iff.1 h
    obtain ⟨⟨content, behind⟩, hcontent, heq⟩ := Option.map_eq_some_iff.1 hvalue
    obtain ⟨inner, hcolon, hcontent⟩ := Option.bind_eq_some_iff.1 hcontent
    obtain ⟨-, rfl⟩ := Prod.mk.inj heq
    calc
      _ < inner.length := value.shorter hcontent
      _ < rest.length := behind?_shorter hcolon
      _ < _ := string.shorter hname
  blank hc text := by rw [string.blank hc]

/-- A member begins with the quote of its name. -/
theorem exists_behind?_of_member {answer : (List Char × α) × List Char}
    (h : value.member.run text = some answer) : ∃ rest, behind? '"' text = some rest := by
  obtain ⟨_, hname, _⟩ := Option.bind_eq_some_iff.1 h
  obtain ⟨rest, hquote, -⟩ := Option.bind_eq_some_iff.1 hname
  exact ⟨rest, hquote⟩

/-- Reads members up to the brace that closes their object. -/
def members (value : Reader α) (text : List Char) :
    Option (List (List Char × α) × List Char) :=
  match _hmember : value.member.run text with
  | none => none
  | some (first, rest) =>
      match behind? '\x7d' rest with
      | some rest => some ([first], rest)
      | none =>
          match _hcomma : behind? ',' rest with
          | some inner => (value.members inner).map fun (others, rest) => (first :: others, rest)
          | none => none
termination_by text.length
decreasing_by exact Nat.lt_trans (behind?_shorter _hcomma) (value.member.shorter _hmember)

theorem members_last {behind : List Char} {last : List Char × α}
    (hlast : value.member.run text = some (last, rest))
    (hbrace : behind? '\x7d' rest = some behind) :
    value.members text = some ([last], behind) := by
  rw [members]
  split
  case h_1 hnone => exact absurd (hlast.symm.trans hnone) (Option.some_ne_none _)
  case h_2 first tail hfirst =>
    obtain ⟨rfl, rfl⟩ := Prod.mk.inj (Option.some.inj (hlast.symm.trans hfirst))
    rw [hbrace]

theorem members_cons {first : List Char × α}
    (hfirst : value.member.run text = some (first, rest))
    (hcomma : behind? ',' rest = some inner) :
    value.members text =
      (value.members inner).map fun (others, rest) => (first :: others, rest) := by
  rw [members]
  split
  case h_1 hnone => exact absurd (hfirst.symm.trans hnone) (Option.some_ne_none _)
  case h_2 other tail hother =>
    obtain ⟨rfl, rfl⟩ := Prod.mk.inj (Option.some.inj (hfirst.symm.trans hother))
    rw [behind?_eq_none hcomma (by decide)]
    simp only
    split
    case h_1 tail htail =>
      obtain rfl := Option.some.inj (hcomma.symm.trans htail)
      rfl
    case h_2 hnone => exact absurd (hcomma.symm.trans hnone) (Option.some_ne_none _)

theorem exists_member_of_members {answer : List (List Char × α) × List Char}
    (h : value.members text = some answer) : ∃ first, value.member.run text = some first := by
  rw [members] at h
  split at h
  case h_1 => cases h
  case h_2 first rest hfirst => exact ⟨(first, rest), hfirst⟩

theorem members_shorter {read : List (List Char × α)}
    (h : value.members text = some (read, rest)) : rest.length < text.length := by
  fun_induction value.members text generalizing read with
  | case1 => cases h
  | case2 text first behind hfirst tail hbrace =>
    obtain ⟨-, rfl⟩ := Prod.mk.inj (Option.some.inj h)
    exact Nat.lt_trans (behind?_shorter hbrace) (value.member.shorter hfirst)
  | case3 text first behind hfirst hnone inner hcomma ih =>
    obtain ⟨⟨others, tail⟩, hothers, heq⟩ := Option.map_eq_some_iff.1 h
    obtain ⟨-, rfl⟩ := Prod.mk.inj heq
    calc
      _ < inner.length := ih hothers
      _ < behind.length := behind?_shorter hcomma
      _ < text.length := value.member.shorter hfirst
  | case4 => cases h

/-- An object, whose members are in the order of the text. -/
def object (value : Reader α) : Reader (List (List Char × α)) where
  run text :=
    (behind? '\x7b' text).bind fun inner =>
      match behind? '\x7d' inner with
      | some rest => some ([], rest)
      | none => value.members inner
  shorter h := by
    obtain ⟨inner, hinner, hread⟩ := Option.bind_eq_some_iff.1 h
    apply Nat.lt_trans _ (behind?_shorter hinner)
    split at hread
    case h_1 rest hrest =>
      obtain ⟨-, rfl⟩ := Prod.mk.inj (Option.some.inj hread)
      exact behind?_shorter hrest
    case h_2 => exact members_shorter hread
  blank hc text := by rw [behind?_blank hc]

theorem object_nil (hopen : behind? '\x7b' text = some inner)
    (hclose : behind? '\x7d' inner = some rest) :
    value.object.run text = some ([], rest) := by
  simp only [object, hopen, Option.bind_some, hclose]

/-- Behind the brace with which an object begins stands a brace or a member. -/
theorem object_of_members {items : List (List Char × α)}
    (hopen : behind? '\x7b' text = some inner)
    (hmembers : value.members inner = some (items, rest)) :
    value.object.run text = some (items, rest) := by
  have hclose : behind? '\x7d' inner = none := by
    obtain ⟨first, hfirst⟩ := exists_member_of_members hmembers
    obtain ⟨behind, hquote⟩ := exists_behind?_of_member hfirst
    exact behind?_eq_none hquote (by decide)
  simp only [object, hopen, Option.bind_some, hclose, hmembers]

/-- The value that is the whole of a text, blanks apart. -/
def whole? (reader : Reader α) (text : List Char) : Option α :=
  match reader.run text with
  | some (value, rest) => if rest.all isBlank then some value else none
  | none => none

end Reader

/-- The text is read as the value, whatever stands behind it. -/
def Reads {α : Type} (reader : Reader α) (text : List Char) (value : α) : Prop :=
  ∀ rest, reader.run (text ++ rest) = some (value, rest)

namespace Reads

variable {α : Type} {reader : Reader α} {text : List Char} {value : α}

theorem blanks {front : List Char} (h : Reads reader text value)
    (hfront : front.all isBlank = true) : Reads reader (front ++ text) value := by
  induction front with
  | nil => exact h
  | cons c front ih =>
    obtain ⟨hc, hfront⟩ := (Bool.and_eq_true _ _).mp (List.all_cons ▸ hfront)
    intro rest
    exact (reader.blank hc _).trans (ih hfront rest)

theorem whole?_eq (h : Reads reader text value) : reader.whole? text = some value := by
  have hrun : reader.run text = some (value, []) := List.append_nil text ▸ h []
  rw [Reader.whole?, hrun]
  rfl

theorem quote (text : List Char) : Reads .string (quote text) text := by
  intro rest
  change (behind? '"' ('"' :: (text.flatMap escape ++ ['"'] ++ rest))).bind read? = _
  rw [behind?_cons rfl, List.append_assoc]
  exact read?_flatMap_escape text rest

theorem member {gap : List Char} (h : Reads reader text value) (hgap : gap.all isBlank = true)
    (name : List Char) :
    Reads reader.member (Json.quote name ++ ':' :: gap ++ text) (name, value) := by
  intro rest
  have hvalue : reader.run (gap ++ (text ++ rest)) = some (value, rest) :=
    List.append_assoc gap text rest ▸ h.blanks hgap rest
  have hname := quote name (':' :: (gap ++ (text ++ rest)))
  rw [List.append_assoc, List.append_assoc]
  simp only [Reader.member]
  rw [List.cons_append, hname]
  change ((behind? ':' (':' :: _)).bind reader.run).map _ = _
  rw [behind?_cons rfl, Option.bind_some, hvalue]
  rfl

section Layout

variable {gap closing line : List Char} {item : List Char × α} {lines : List (List Char)}
  {items : List (List Char × α)}

/-- Every layout is read: a gap in front of each member, behind the comma if it is not the first. -/
theorem members (hgap : gap.all isBlank = true) (hclosing : closing.all isBlank = true)
    (hline : Reads reader.member line item)
    (hlines : List.Forall₂ (Reads reader.member) lines items) (rest : List Char) :
    reader.members (gap ++ (List.intercalate (',' :: gap) (line :: lines) ++
      (closing ++ '\x7d' :: rest))) = some (item :: items, rest) := by
  induction hlines generalizing line item with
  | nil =>
    have hbrace : behind? '\x7d' (closing ++ '\x7d' :: rest) = some rest :=
      (behind?_blanks hclosing _ _).trans (behind?_cons rfl rest)
    rw [List.intercalate_singleton, ← List.append_assoc]
    exact Reader.members_last (hline.blanks hgap _) hbrace
  | @cons next other lines items hnext hlines ih =>
    let inner :=
      gap ++ (List.intercalate (',' :: gap) (next :: lines) ++ (closing ++ '\x7d' :: rest))
    have hmembers := Reader.members_cons (hline.blanks hgap (',' :: inner)) (behind?_cons rfl inner)
    rw [ih hnext] at hmembers
    rw [List.intercalate_cons_cons, List.append_assoc, List.append_assoc, ← List.append_assoc gap]
    exact hmembers

theorem object (hgap : gap.all isBlank = true) (hclosing : closing.all isBlank = true)
    (h : List.Forall₂ (Reads reader.member) lines items) :
    Reads reader.object
      ('\x7b' :: (gap ++ (List.intercalate (',' :: gap) lines ++ (closing ++ ['\x7d']))))
      items := by
  intro rest
  have hassoc (text : List Char) :
      '\x7b' :: (gap ++ (text ++ (closing ++ ['\x7d']))) ++ rest =
        '\x7b' :: (gap ++ (text ++ (closing ++ '\x7d' :: rest))) := by
    simp only [List.cons_append, List.append_assoc, List.nil_append]
  rw [hassoc]
  cases h with
  | nil =>
    apply Reader.object_nil (behind?_cons rfl _)
    rw [behind?_blanks hgap, List.intercalate_nil, List.nil_append, behind?_blanks hclosing]
    exact behind?_cons rfl rest
  | cons hline hlines =>
    apply Reader.object_of_members (behind?_cons rfl _)
    exact members hgap hclosing hline hlines rest

end Layout

section Items

variable {ι : Type} {items : List ι} {name text : ι → List Char} {content : ι → α}

theorem map {texts : ι → List Char} {values : ι → α}
    (h : ∀ item ∈ items, Reads reader (texts item) (values item)) :
    List.Forall₂ (Reads reader) (items.map texts) (items.map values) := by
  apply List.forall₂_map_left_iff.2
  apply List.forall₂_map_right_iff.2
  exact List.forall₂_same.2 h

theorem compactObject (h : ∀ item ∈ items, Reads reader (text item) (content item)) :
    Reads reader.object (Json.compactObject (items.map fun item => (name item, text item)))
      (items.map fun item => (name item, content item)) := by
  have hnone : ([] : List Char).all isBlank = true := rfl
  have hline : ∀ item ∈ items, Reads reader.member
      (Json.quote (name item) ++ [':'] ++ text item) (name item, content item) :=
    fun item hitem => (h item hitem).member hnone (name item)
  have hobject := object hnone hnone (map hline)
  rw [Json.compactObject, List.map_map]
  exact hobject

theorem indentedObject (depth : Nat)
    (h : ∀ item ∈ items, Reads reader (text item) (content item)) :
    Reads reader.object (Json.indentedObject depth (items.map fun item => (name item, text item)))
      (items.map fun item => (name item, content item)) := by
  have hnone : ([] : List Char).all isBlank = true := rfl
  have hbreak : ['\n'].all isBlank = true := rfl
  have hspace : [' '].all isBlank = true := rfl
  have hspaces (n : Nat) : (List.replicate n ' ').all isBlank = true :=
    List.all_eq_true.2 fun c hc => List.eq_of_mem_replicate hc ▸ rfl
  have hline : ∀ item ∈ items, Reads reader.member
      (List.replicate (2 * (depth + 1)) ' ' ++ (Json.quote (name item) ++ [':', ' '] ++ text item))
      (name item, content item) := fun item hitem =>
    ((h item hitem).member hspace (name item)).blanks (hspaces _)
  have hclosing : ('\n' :: List.replicate (2 * depth) ' ').all isBlank = true :=
    hspaces (2 * depth)
  have hobject := object hbreak hclosing (map hline)
  unfold Json.indentedObject
  split
  case isTrue hempty =>
    -- no line break stands between the braces of an empty object
    obtain rfl := List.map_eq_nil_iff.1 (List.isEmpty_iff.1 hempty)
    exact object hnone hnone .nil
  case isFalse =>
    dsimp only
    rw [List.map_map, List.append_assoc]
    exact hobject

end Items

end Reads

end EnumInline.Json
