import EnumInline.Double.Reading
import EnumInline.Json.Quoted

/-!
Strings as JSON reads them. Between the quotes, characters below the blank and
backslashes stand in escapes only, and the code of an escape is a character or the first
half of one whose second half is the code of the next.
-/

namespace EnumInline.Json

/-- The character that a letter behind a backslash stands for. -/
def short? : Char → Option Char
  | '"' => some '"'
  | '\\' => some '\\'
  | '/' => some '/'
  | 'b' => some '\x08'
  | 'f' => some '\x0c'
  | 'n' => some '\n'
  | 'r' => some '\r'
  | 't' => some '\t'
  | _ => none

/-- The value of hexadecimal digits. -/
def code? (digits : List Char) : Option Nat :=
  (digits.mapM (Double.digitValue? 16)).map fun values =>
    values.foldl (fun total digit => total * 16 + digit) 0

def isFirstHalf (code : Nat) : Bool := 0xd800 ≤ code && code < 0xdc00

def isSecondHalf (code : Nat) : Bool := 0xdc00 ≤ code && code < 0xe000

/-- The character whose halves are `first` and `second`. -/
def joined (first second : Nat) : Char :=
  Char.ofNat (0x10000 + (first - 0xd800) * 0x400 + (second - 0xdc00))

/-- What is read if `c` stands before the rest of a string. -/
def prepend (c : Char) (rest : Option (List Char × List Char)) :
    Option (List Char × List Char) :=
  rest.map fun (text, behind) => (c :: text, behind)

/-- Reads a string behind its opening quote: the text and what stands behind the closing
quote. -/
def read? : List Char → Option (List Char × List Char)
  | '"' :: rest => some ([], rest)
  | '\\' :: 'u' :: a :: b :: c :: d :: rest =>
      (code? [a, b, c, d]).bind fun code =>
        if isSecondHalf code then none
        else if isFirstHalf code then
          match rest with
          | '\\' :: 'u' :: a :: b :: c :: d :: rest =>
              (code? [a, b, c, d]).bind fun other =>
                if isSecondHalf other then prepend (joined code other) (read? rest) else none
          | _ => none
        else prepend (Char.ofNat code) (read? rest)
  | '\\' :: letter :: rest => (short? letter).bind fun c => prepend c (read? rest)
  | c :: rest => if c.toNat < 0x20 || c == '\\' then none else prepend c (read? rest)
  | [] => none

/-- The text of a string, if the JSON text is one string and nothing else. -/
def unquote? : List Char → Option (List Char)
  | '"' :: rest =>
      match read? rest with
      | some (text, []) => some text
      | _ => none
  | _ => none

theorem le_hexDigit {n : Nat} (h : n < 16) : 0x20 ≤ (hexDigit n).toNat := by
  have hall : ∀ n < 16, 0x20 ≤ (hexDigit n).toNat := by decide
  exact hall n h

theorem code?_control {n : Nat} (h : n < 0x20) :
    code? ['0', '0', hexDigit (n / 16), hexDigit (n % 16)] = some n := by
  have hcodes : ∀ n < 0x20,
      code? ['0', '0', hexDigit (n / 16), hexDigit (n % 16)] = some n := by
    decide
  exact hcodes n h

theorem read?_escape (c : Char) (rest : List Char) :
    read? (escape c ++ rest) = prepend c (read? rest) := by
  unfold escape
  split
  all_goals try rfl
  next hquote hbackslash _ _ _ _ _ =>
    split
    next hcontrol =>
      have hfirst : isFirstHalf c.toNat = false := by
        rw [isFirstHalf, Bool.and_eq_false_iff, decide_eq_false_iff_not]
        omega
      have hsecond : isSecondHalf c.toNat = false := by
        rw [isSecondHalf, Bool.and_eq_false_iff, decide_eq_false_iff_not]
        omega
      simp [read?, code?_control hcontrol, hfirst, hsecond]
    next hplain =>
      have hquote : c ≠ '"' := hquote
      have hbackslash : c ≠ '\\' := hbackslash
      rw [List.singleton_append, read?]
      all_goals simp [hquote, hbackslash, hplain]

theorem read?_flatMap_escape (text rest : List Char) :
    read? (text.flatMap escape ++ '"' :: rest) = some (text, rest) := by
  induction text with
  | nil => rfl
  | cons c text ih =>
    rw [List.flatMap_cons, List.append_assoc, read?_escape, ih]
    rfl

theorem unquote?_quote (text : List Char) : unquote? (quote text) = some text := by
  rw [quote, List.cons_append, unquote?, read?_flatMap_escape]

example : unquote? "\"\\ud83d\\ude00\\/\"".toList = some [Char.ofNat 0x1f600, '/'] := by
  decide +kernel

/-- No character of an escape is below the blank. -/
theorem le_of_mem_escape {c d : Char} (h : d ∈ escape c) : 0x20 ≤ d.toNat := by
  unfold escape at h
  split at h
  case h_8 =>
    split at h
    case isTrue hcontrol =>
      simp only [List.mem_cons, List.not_mem_nil, or_false] at h
      rcases h with rfl | rfl | rfl | rfl | rfl | rfl
      · decide
      · decide
      · decide
      · decide
      · exact le_hexDigit (by omega)
      · exact le_hexDigit (by omega)
    case isFalse hplain =>
      rw [List.mem_singleton.1 h]
      omega
  all_goals
    simp only [List.mem_cons, List.not_mem_nil, or_false] at h
    rcases h with rfl | rfl <;> decide

theorem le_of_mem_quote {text : List Char} {c : Char} (h : c ∈ quote text) :
    0x20 ≤ c.toNat := by
  rw [quote, List.cons_append, List.mem_cons, List.mem_append, List.mem_flatMap] at h
  rcases h with rfl | ⟨d, -, hd⟩ | hlast
  · decide
  · exact le_of_mem_escape hd
  · rw [List.mem_singleton.1 hlast]
    decide

end EnumInline.Json
