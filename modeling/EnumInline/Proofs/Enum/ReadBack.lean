import EnumInline.Enum.Value
import EnumInline.Proofs.Double.Word
import EnumInline.Proofs.TypeScript.Literals

/-!
Values that are read back from their texts. A text does not tell the two zeros apart,
and the sign of a negative number becomes an operator; apart from that, a value is the
one its text is read as.
-/

namespace EnumInline

open Text TypeScript

/-- The text is this token and nothing else. -/
def TypeScript.Token.IsReadFrom (token : Token) (text : List Char) : Prop :=
  ∃ stop, readHere ⟨text, 0⟩ = ⟨token, ⟨[], stop⟩, []⟩

def Literal.token : Literal → Token
  | .number value => .number value
  | .string text => .string text

/-- The text is the operator of the value, if it has one, and its literal as
one token. -/
def MemberValue.IsReadFrom (value : MemberValue) (text : List Char) : Prop :=
  ∃ rest, text = value.operator.toList.map PrefixOperator.symbol ++ rest ∧
    value.literal.token.IsReadFrom rest

/-- Two values with one text, from which members count on alike. -/
structure MemberValue.Agrees (value other : MemberValue) : Prop where
  text : other.text = value.text
  next : other.next? = value.next?

theorem MemberValue.Agrees.refl (value : MemberValue) : value.Agrees value := ⟨rfl, rfl⟩

namespace Literal

variable {literal : Literal} {text : List Char}

theorem token_injective {other : Literal} (h : literal.token = other.token) :
    literal = other := by
  cases literal <;> cases other <;> cases h <;> rfl

theorem token_eq_of_readHere {token : Token} {stop : Nat}
    (hread : Token.readHere ⟨text, 0⟩ = ⟨token, ⟨[], stop⟩, []⟩)
    (h : literal.token.IsReadFrom text) : literal.token = token := by
  obtain ⟨stop', hliteral⟩ := h
  rw [hread] at hliteral
  cases hliteral
  rfl

theorem eq_of_quote {written : String}
    (h : literal.token.IsReadFrom (Json.quote written.toList)) : literal = .string written := by
  apply token_injective
  rw [token_eq_of_readHere (Token.readHere_quote _ _) h, String.ofList_toList]
  rfl

theorem eq_of_magnitudeText {units : Nat} (hunits : 0 < units)
    (hmagnitude : Double.IsMagnitude units)
    (h : literal.token.IsReadFrom (Double.magnitudeText units)) :
    literal = .number (.finite false units hmagnitude) := by
  obtain ⟨layout, htext, hnumeral, hvalue⟩ :=
    Double.isNumeralOf_magnitudeText hunits hmagnitude
  rw [htext] at h
  apply token_injective
  rw [token_eq_of_readHere (Token.readHere_numeral hnumeral 0) h, hvalue,
    Double.nearest_shortest hunits hmagnitude]
  rfl

theorem eq_of_zero (h : literal.token.IsReadFrom ['0']) : literal = .number .zero :=
  token_injective (token_eq_of_readHere
    (by rfl : Token.readHere ⟨['0'], 0⟩ = ⟨.number .zero, ⟨[], 1⟩, []⟩) h)

/-- A number that is not finite is written as a name. -/
theorem not_isReadFrom_name {name : String}
    (h : (Token.readHere ⟨name.toList, 0⟩).value = .name name) :
    ¬ literal.token.IsReadFrom name.toList := by
  rintro ⟨stop, hread⟩
  rw [hread] at h
  cases literal <;> cases h

/-- No literal begins with an operator. -/
theorem not_isReadFrom_symbol (operator : PrefixOperator) (rest : List Char) :
    ¬ literal.token.IsReadFrom (operator.symbol :: rest) := by
  rintro ⟨stop, hread⟩
  have hvalue : (Token.readHere ⟨operator.symbol :: rest, 0⟩).value = literal.token := by
    rw [hread]
  have hother : startsName operator.symbol = false ∧ operator.symbol ≠ '\\' ∧
      isAsciiDigit operator.symbol = false ∧ operator.symbol ≠ '.' ∧
      operator.symbol ≠ '"' ∧ operator.symbol ≠ '\'' := by
    cases operator <;> decide
  obtain ⟨hname, hescape, hdigit, hpoint, hdouble, hsingle⟩ := hother
  simp only [Token.readHere, hname, hescape, hdigit, hpoint, hdouble, hsingle, beq_iff_eq,
    Bool.or_eq_true, Bool.and_eq_true, Bool.false_eq_true, false_or, false_and,
    if_false] at hvalue
  split at hvalue
  next token next hmark =>
    obtain ⟨mark, -, hmark⟩ := Option.map_eq_some_iff.1 hmark
    cases hmark
    cases literal <;> cases hvalue
  next => cases literal <;> cases hvalue

end Literal

namespace MemberValue

variable {read : MemberValue} {tail : List Char}

theorem symbol_ne {c : Char} (h : c ∉ ['-', '+', '~', '!']) (operator : PrefixOperator) :
    operator.symbol ≠ c := by
  rintro rfl
  cases operator <;> simp [PrefixOperator.symbol] at h

/-- A text that begins with an operator is read as a value with the operator. -/
theorem IsReadFrom.of_symbol {operator : PrefixOperator}
    (h : read.IsReadFrom (operator.symbol :: tail)) :
    read.operator = some operator ∧ read.literal.token.IsReadFrom tail := by
  obtain ⟨rest, htext, hliteral⟩ := h
  cases hoperator : read.operator with
  | none =>
    rw [hoperator] at htext
    obtain rfl : operator.symbol :: tail = rest := htext
    exact absurd hliteral (Literal.not_isReadFrom_symbol operator tail)
  | some other =>
    rw [hoperator] at htext
    obtain ⟨hsymbol, rfl⟩ : operator.symbol = other.symbol ∧ tail = rest := List.cons.inj htext
    have hsame : operator = other := by
      revert hsymbol
      cases operator <;> cases other <;> decide
    exact ⟨by rw [hsame], hliteral⟩

/-- Another text is read as a value without an operator. -/
theorem IsReadFrom.of_ne_symbol {c : Char} (hc : ∀ operator, PrefixOperator.symbol operator ≠ c)
    (h : read.IsReadFrom (c :: tail)) :
    read.operator = none ∧ read.literal.token.IsReadFrom (c :: tail) := by
  obtain ⟨rest, htext, hliteral⟩ := h
  cases hoperator : read.operator with
  | none =>
    rw [hoperator] at htext
    obtain rfl : c :: tail = rest := htext
    exact ⟨rfl, hliteral⟩
  | some other =>
    rw [hoperator] at htext
    exact absurd (List.cons.inj htext).1.symm (hc other)

theorem IsReadFrom.literal_of_head {value : MemberValue} {c : Char}
    (hhead : value.literal.chars.head? = some c)
    (hc : ∀ operator, PrefixOperator.symbol operator ≠ c) (h : read.IsReadFrom value.chars) :
    read.operator = value.operator ∧ read.literal.token.IsReadFrom value.literal.chars := by
  obtain ⟨operator, literal⟩ := value
  cases operator with
  | none =>
    obtain ⟨tail, htail⟩ := List.head?_eq_some_iff.1 hhead
    change read.IsReadFrom literal.chars at h
    dsimp only at htail ⊢
    rw [htail] at h ⊢
    exact h.of_ne_symbol hc
  | some operator => exact h.of_symbol

/-- The sign of a negative literal is read as the operator of the value, which
has no other. -/
theorem IsReadFrom.of_negative {operator : Option PrefixOperator} {literal : Literal}
    (htext : literal.chars = '-' :: tail) (h : read.IsReadFrom (chars ⟨operator, literal⟩)) :
    operator = none ∧ read.operator = some .minus ∧ read.literal.token.IsReadFrom tail := by
  cases operator with
  | none =>
    have hchars : chars ⟨none, literal⟩ = PrefixOperator.minus.symbol :: tail := htext
    rw [hchars] at h
    exact ⟨rfl, h.of_symbol⟩
  | some operator =>
    have hchars : chars ⟨some operator, literal⟩ =
        operator.symbol :: PrefixOperator.minus.symbol :: tail :=
      congrArg (operator.symbol :: ·) htext
    rw [hchars] at h
    exact absurd h.of_symbol.2 (Literal.not_isReadFrom_symbol .minus tail)

/-- The sign of a zero is lost, but does not matter for counting on. -/
theorem agrees_of_zero (operator : Option PrefixOperator) (negative : Bool)
    (hmagnitude : Double.IsMagnitude 0) :
    Agrees ⟨operator, .number (.finite negative 0 hmagnitude)⟩ ⟨operator, .number .zero⟩ := by
  have hsum (negative : Bool) (hmagnitude : Double.IsMagnitude 0) {units : Nat}
      (hunits : Double.IsMagnitude units) : (Double.finite negative 0 hmagnitude).add
        (.finite false units hunits) = Double.zero.add (.finite false units hunits) := by
    cases negative <;> simp [Double.add, Double.zero, Double.signedUnits]
  have hadd (negative : Bool) (hmagnitude : Double.IsMagnitude 0) :
      (Double.finite negative 0 hmagnitude).add .one = Double.zero.add .one :=
    hsum negative hmagnitude _
  have hcomplement : (Double.finite negative 0 hmagnitude).complement =
      Double.zero.complement := by
    have hword : (Double.finite negative 0 hmagnitude).toInt32 = Double.zero.toInt32 := by
      rw [← Int32.toInt_inj, Double.zero, Double.toInt_toInt32, Double.toInt_toInt32,
        Nat.zero_div, Double.signedUnits_zero, Double.signedUnits_zero]
    rw [Double.complement, Double.complement, hword]
  constructor
  · rw [text, text, chars, chars, Literal.chars, Literal.chars, Double.zero, Double.text_finite,
      Double.text_finite, if_pos rfl, if_pos rfl]
  · cases operator with
    | none => simp only [next?, numeric?, Option.map_some, hadd]
    | some operator =>
      cases operator with
      | minus =>
        simp only [next?, numeric?, Option.map_some, Double.zero, Double.negate]
        rw [hadd, hadd]
      | plus => simp only [next?, numeric?, Option.map_some, hadd]
      | complement => simp only [next?, numeric?, Option.map_some, hcomplement]
      | not => rfl

theorem symbol_ne_of_isAsciiDigit {c : Char} (h : isAsciiDigit c = true)
    (operator : PrefixOperator) : operator.symbol ≠ c := by
  rintro rfl
  cases operator <;> exact absurd h (by decide)

section Numbers

variable {operator : Option PrefixOperator} {units : Nat} {hmagnitude : Double.IsMagnitude units}

/-- A number that is not negative. -/
theorem IsReadFrom.agrees_of_pos (hunits : 0 < units)
    (h : read.IsReadFrom (chars ⟨operator, .number (.finite false units hmagnitude)⟩)) :
    Agrees ⟨operator, .number (.finite false units hmagnitude)⟩ read := by
  have htext : Literal.chars (.number (.finite false units hmagnitude)) =
      Double.magnitudeText units := by
    rw [Literal.chars, Double.text_finite, if_neg (Nat.ne_of_gt hunits)]
    rfl
  obtain ⟨c, hhead, hdigit⟩ := Double.exists_head?_magnitudeText hunits hmagnitude
  obtain ⟨hoperator, hliteral⟩ :=
    h.literal_of_head (htext ▸ hhead) (symbol_ne_of_isAsciiDigit hdigit)
  dsimp only at hoperator hliteral
  rw [htext] at hliteral
  obtain ⟨readOperator, readLiteral⟩ := read
  obtain rfl : readOperator = operator := hoperator
  obtain rfl := Literal.eq_of_magnitudeText hunits hmagnitude hliteral
  exact .refl _

/-- A negative number, whose sign is read as an operator. -/
theorem IsReadFrom.agrees_of_neg (hunits : 0 < units)
    (h : read.IsReadFrom (chars ⟨operator, .number (.finite true units hmagnitude)⟩)) :
    Agrees ⟨operator, .number (.finite true units hmagnitude)⟩ read := by
  have htext : Literal.chars (.number (.finite true units hmagnitude)) =
      '-' :: Double.magnitudeText units := by
    rw [Literal.chars, Double.text_finite, if_neg (Nat.ne_of_gt hunits)]
    rfl
  obtain ⟨rfl, hoperator, hliteral⟩ := h.of_negative htext
  obtain ⟨readOperator, readLiteral⟩ := read
  obtain rfl : readOperator = some .minus := hoperator
  obtain rfl := Literal.eq_of_magnitudeText hunits hmagnitude hliteral
  refine ⟨congrArg String.ofList ?_, rfl⟩
  have hmagnitudeText : Literal.chars (.number (.finite false units hmagnitude)) =
      Double.magnitudeText units := by
    rw [Literal.chars, Double.text_finite, if_neg (Nat.ne_of_gt hunits)]
    rfl
  rw [chars, chars, htext, hmagnitudeText]
  rfl

end Numbers

theorem IsReadFrom.agrees {value : MemberValue} (h : read.IsReadFrom value.chars) :
    value.Agrees read := by
  obtain ⟨operator, literal⟩ := value
  cases literal with
  | string written =>
    obtain ⟨hoperator, hliteral⟩ :=
      h.literal_of_head (c := '"') rfl (symbol_ne (by decide))
    obtain ⟨readOperator, readLiteral⟩ := read
    obtain rfl : readOperator = operator := hoperator
    obtain rfl := Literal.eq_of_quote hliteral
    exact .refl _
  | number value =>
    cases value with
    | nan =>
      have hliteral := (h.literal_of_head (c := 'N') rfl (symbol_ne (by decide))).2
      exact absurd hliteral (Literal.not_isReadFrom_name rfl)
    | infinity negative =>
      cases negative with
      | false =>
        have hliteral := (h.literal_of_head (c := 'I') rfl (symbol_ne (by decide))).2
        exact absurd hliteral (Literal.not_isReadFrom_name rfl)
      | true =>
        have htext : Literal.chars (.number (.infinity true)) = '-' :: "Infinity".toList := rfl
        have hliteral := (h.of_negative htext).2.2
        exact absurd hliteral (Literal.not_isReadFrom_name rfl)
    | finite negative units hmagnitude =>
      rcases Nat.eq_zero_or_pos units with rfl | hunits
      · obtain ⟨hoperator, hliteral⟩ :=
          h.literal_of_head (c := '0') (by
            rw [Literal.chars, Double.text_finite, if_pos rfl]
            rfl) (symbol_ne (by decide))
        obtain ⟨readOperator, readLiteral⟩ := read
        obtain rfl : readOperator = operator := hoperator
        rw [Literal.chars, Double.text_finite, if_pos rfl] at hliteral
        obtain rfl := Literal.eq_of_zero hliteral
        exact agrees_of_zero _ negative hmagnitude
      · cases negative with
        | false => exact h.agrees_of_pos hunits
        | true => exact h.agrees_of_neg hunits

end MemberValue

end EnumInline
