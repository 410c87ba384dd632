import EnumInline.Proofs.Double.Text
import EnumInline.Proofs.Enum.Evaluation
import EnumInline.Proofs.Enum.ReadBack
import EnumInline.Proofs.Json.Strings
import EnumInline.Proofs.TypeScript.Enums

/-!
How values are spelled. A value that a project gives to a member has an operator in front
of a string or of a number without a sign only, whatever other members it has been copied
or counted from; so one operator at most stands in its text, and one literal behind it.
-/

namespace EnumInline

open Text

/-- The text of a literal without a sign. -/
inductive IsLiteralText : List Char → Prop where
  | string {text decoded : List Char} (h : Json.unquote? text = some decoded) :
      IsLiteralText text
  | number {layout : Double.Layout} (h : layout.IsNumeral) : IsLiteralText layout.text
  | infinity : IsLiteralText "Infinity".toList

/-- An operator, if there is one, and the text of one literal without a sign. -/
def IsSignedText (text : List Char) : Prop :=
  ∃ (operator : Option PrefixOperator) (literal : List Char),
    text = operator.toList.map PrefixOperator.symbol ++ literal ∧ IsLiteralText literal

/-- A text that begins with two operators. -/
def HasTwoOperators (text : List Char) : Prop :=
  ∃ first second : PrefixOperator, [first.symbol, second.symbol] <+: text

namespace Double

theorem ofInt_ne_nan (n : Int) : ofInt n ≠ .nan := by
  unfold ofInt nearest
  split <;> simp

theorem add_one_ne_nan {value : Double} (h : value ≠ .nan) : value.add .one ≠ .nan := by
  cases value with
  | nan => exact absurd rfl h
  | infinity negative => simp [add, one]
  | finite negative units hmagnitude =>
    unfold add one nearest
    dsimp only
    split
    · simp
    · split <;> simp

/-- The text of a number without a sign has none. -/
theorem IsUnsigned.isLiteralText {value : Double} (h : value.IsUnsigned) :
    IsLiteralText value.text := by
  cases h with
  | infinity => exact .infinity
  | finite hmagnitude =>
    obtain ⟨sign, layout, hnumeral, htext, rfl | ⟨hnegative, -⟩⟩ :=
      exists_layout false _ hmagnitude
    · rw [htext]
      exact .number hnumeral
    · cases hnegative

/-- A number is written with one sign at most. -/
theorem isSignedText {value : Double} (h : value ≠ .nan) : IsSignedText value.text := by
  cases value with
  | nan => exact absurd rfl h
  | infinity negative =>
    cases negative with
    | false => exact ⟨none, _, rfl, .infinity⟩
    | true => exact ⟨some .minus, _, rfl, .infinity⟩
  | finite negative units hmagnitude =>
    obtain ⟨sign, layout, hnumeral, htext, hsign⟩ := exists_layout negative units hmagnitude
    rw [htext]
    rcases hsign with rfl | ⟨-, rfl⟩
    · exact ⟨none, _, rfl, .number hnumeral⟩
    · exact ⟨some .minus, _, rfl, .number hnumeral⟩

end Double

/-- A literal begins with a quote, a digit or the first letter of infinity. -/
theorem IsLiteralText.head?_ne_symbol {text : List Char} (h : IsLiteralText text)
    (operator : PrefixOperator) : text.head? ≠ some operator.symbol := by
  cases h with
  | string h =>
    unfold Json.unquote? at h
    split at h
    case h_1 =>
      have hsymbol := MemberValue.symbol_ne (by simp : '"' ∉ ['-', '+', '~', '!']) operator
      simpa using hsymbol.symm
    case h_2 => cases h
  | number hnumeral =>
    obtain ⟨c, rest, htext, hdigit⟩ := hnumeral.exists_digit
    have hsymbol := MemberValue.symbol_ne_of_isAsciiDigit hdigit operator
    simpa [htext] using hsymbol.symm
  | infinity =>
    have hsymbol := MemberValue.symbol_ne (by simp : 'I' ∉ ['-', '+', '~', '!']) operator
    simpa using hsymbol.symm

theorem IsSignedText.not_hasTwoOperators {text : List Char} (h : IsSignedText text) :
    ¬ HasTwoOperators text := by
  rintro ⟨first, second, rest, hfirst⟩
  obtain ⟨operator, literal, rfl, hliteral⟩ := h
  cases operator with
  | none =>
    obtain rfl : first.symbol :: second.symbol :: rest = literal := hfirst
    exact hliteral.head?_ne_symbol first rfl
  | some operator =>
    obtain ⟨-, rfl⟩ := List.cons.inj hfirst
    exact hliteral.head?_ne_symbol second rfl

/-- A string or a number without a sign. -/
def Literal.IsUnsigned : Literal → Prop
  | .number value => value.IsUnsigned
  | .string _ => True

theorem Literal.IsUnsigned.isLiteralText {literal : Literal} (h : literal.IsUnsigned) :
    IsLiteralText literal.chars := by
  cases literal with
  | number value => exact Double.IsUnsigned.isLiteralText h
  | string text => exact .string (Json.unquote?_quote _)

namespace MemberValue

/-- Behind an operator, a value has no number with a sign. -/
structure IsPlain (value : MemberValue) : Prop where
  proper : value.literal ≠ .number .nan
  unsigned : ∀ operator, value.operator = some operator → value.literal.IsUnsigned

variable {value : MemberValue}

theorem isPlain_of_isUnsigned {literal : Literal} (h : literal.IsUnsigned)
    (operator : Option PrefixOperator) : (⟨operator, literal⟩ : MemberValue).IsPlain where
  proper := by
    rintro rfl
    cases h
  unsigned _ _ := h

theorem isPlain_ordinal {number : Double} (h : number ≠ .nan) : (ordinal number).IsPlain where
  proper hnan := h (Literal.number.inj hnan)
  unsigned _ hnone := nomatch hnone

/-- Counting on from a value gives a number without an operator, and never `nan`. -/
theorem IsPlain.next? {next : MemberValue} (h : value.IsPlain) (hnext : value.next? = some next) :
    next.IsPlain := by
  obtain ⟨number, hnumber, rfl⟩ := Option.map_eq_some_iff.1 hnext
  refine isPlain_ordinal (Double.add_one_ne_nan ?_)
  obtain ⟨operator, literal⟩ := value
  cases literal with
  | string text => cases hnumber
  | number own =>
    have hown : own ≠ .nan := fun hnan => h.proper (by rw [hnan])
    cases operator with
    | none =>
      obtain rfl : own = number := Option.some.inj hnumber
      exact hown
    | some operator =>
      cases operator with
      | minus =>
        obtain rfl : own.negate = number := Option.some.inj hnumber
        cases own <;> simp_all [Double.negate]
      | plus =>
        obtain rfl : own = number := Option.some.inj hnumber
        exact hown
      | complement =>
        obtain rfl : own.complement = number := Option.some.inj hnumber
        exact Double.ofInt_ne_nan _
      | not => cases hnumber

/-- One operator at most, and one literal behind it. -/
theorem IsPlain.isSignedText (h : value.IsPlain) : IsSignedText value.chars := by
  obtain ⟨operator, literal⟩ := value
  cases operator with
  | some operator => exact ⟨some operator, _, rfl, (h.unsigned operator rfl).isLiteralText⟩
  | none =>
    cases literal with
    | string text => exact ⟨none, _, rfl, .string (Json.unquote?_quote _)⟩
    | number number => exact Double.isSignedText fun hnan => h.proper (by rw [hnan])

end MemberValue

namespace Double

theorem le_of_isAsciiDigit {c : Char} (h : isAsciiDigit c = true) : 0x20 ≤ c.toNat :=
  of_isAsciiDigit (0x20 ≤ ·.toNat) (by decide) h

theorem Layout.IsNumeral.le_of_mem {layout : Layout} (h : layout.IsNumeral) {c : Char}
    (hc : c ∈ layout.text) : 0x20 ≤ c.toNat := by
  unfold Layout.text Layout.fractionText Layout.exponentText at hc
  rcases List.mem_append.1 hc with hdigits | hexponent
  · rcases List.mem_append.1 hdigits with hwhole | hfraction
    · exact le_of_isAsciiDigit (h.isDigit c (List.mem_append_left _ hwhole))
    · split at hfraction
      case isTrue => cases hfraction
      case isFalse =>
        rcases List.mem_cons.1 hfraction with rfl | hfraction
        · decide
        · exact le_of_isAsciiDigit (h.isDigit c (List.mem_append_right _ hfraction))
  · split at hexponent
    case isTrue => cases hexponent
    case isFalse =>
      obtain ⟨sign, magnitude, hwritten, hsign⟩ := toList_toString_int layout.exponent
      rw [hwritten] at hexponent
      rcases List.mem_cons.1 hexponent with rfl | hexponent
      · decide
      rcases List.mem_append.1 hexponent with hmark | hmagnitude
      · rcases hsign with rfl | rfl
        · cases hmark
        · rw [List.mem_singleton.1 hmark]
          decide
      · exact le_of_isAsciiDigit (isAsciiDigit_of_mem_toDigits hmagnitude)

theorem le_of_mem_text {value : Double} {c : Char} (hc : c ∈ value.text) :
    0x20 ≤ c.toNat := by
  cases value with
  | nan =>
    have hletters : ∀ c ∈ "NaN".toList, 0x20 ≤ c.toNat := by simp
    exact hletters c hc
  | infinity negative =>
    have hletters : ∀ c ∈ "-Infinity".toList, 0x20 ≤ c.toNat := by simp
    cases negative with
    | false => exact hletters c (List.mem_cons_of_mem _ hc)
    | true => exact hletters c hc
  | finite negative units hmagnitude =>
    obtain ⟨sign, layout, hnumeral, htext, hsign⟩ := exists_layout negative units hmagnitude
    rw [htext, List.mem_append] at hc
    rcases hc with hmark | hc
    · rcases hsign with rfl | ⟨-, rfl⟩
      · cases hmark
      · rw [List.mem_singleton.1 hmark]
        decide
    · exact hnumeral.le_of_mem hc

end Double

/-- No text of a value holds a control character. -/
theorem MemberValue.le_of_mem_chars {value : MemberValue} {c : Char} (hc : c ∈ value.chars) :
    0x20 ≤ c.toNat := by
  rcases List.mem_append.1 hc with hoperator | hliteral
  · obtain ⟨operator, -, rfl⟩ := List.mem_map.1 hoperator
    cases operator <;> decide
  · cases hvalue : value.literal with
    | number number =>
      rw [hvalue] at hliteral
      exact Double.le_of_mem_text hliteral
    | string text =>
      rw [hvalue] at hliteral
      exact Json.le_of_mem_quote hliteral

/-- The literal of an initializer has no sign, but for the operator in front of it. -/
def Initializer.IsUnsigned : Initializer → Prop
  | .literal _ constant => constant.IsUnsigned
  | _ => True

namespace Enum.Evaluation

variable {index : Index} {bindings : BindingGraph} {values : Values}
  {found : List (MemberKey × Origin)} {key : MemberKey} {value : MemberValue}

/-- A value is handed on as it is or counted on from. -/
theorem derive_ok {rules : Std.ExtTreeMap MemberKey Rule} {derived : MemberValue}
    (h : derive rules key value = .ok (some derived)) :
    derived = value ∨ value.next? = some derived := by
  unfold derive at h
  split at h
  case h_1 => cases h
  case h_2 =>
    cases h
    exact Or.inl rfl
  case h_3 =>
    split at h
    case h_1 next hnext =>
      cases h
      exact Or.inr hnext
    case h_2 => cases h

/-- All values are plain if the literals in the initializers have no signs. -/
theorem isPlain_of_evaluate
    (hliterals : ∀ (key : DeclarationKey) (declaration : Declaration),
      index[key]? = some declaration →
        ∀ member ∈ declaration.members, member.initializer.IsUnsigned)
    (h : evaluate index bindings = .ok values) (hvalue : values[key]? = some value) :
    value.IsPlain := by
  obtain ⟨found, hfound, hconsistent⟩ := evaluate_ok h
  -- the induction follows the value from the member that it comes from
  have harrives := hconsistent.arrives key value hvalue
  clear hvalue
  induction harrives with
  | @seed key value hseed =>
    obtain ⟨position, initializer, hmember, hfits⟩ :=
      isOrigin_of_mem hfound (mem_seeds.mp hseed.mem)
    obtain ⟨declaration, hindex, hmember⟩ := hmember
    cases hfits with
    | literal =>
      have hconstant : Literal.IsUnsigned _ :=
        hliterals _ _ hindex _ (List.mem_of_getElem? hmember)
      exact MemberValue.isPlain_of_isUnsigned hconstant _
    | first => exact MemberValue.isPlain_ordinal (by simp [Double.zero])
  | step _ _ hderive _ ih =>
    rcases derive_ok hderive with rfl | hnext
    · exact ih
    · exact ih.next? hnext

end Enum.Evaluation

namespace Initializer

open TypeScript

variable {expr : Expr} {constant : Literal}

theorem isUnsigned_unwrap (h : expr.IsUnsigned) : (unwrap expr).IsUnsigned := by
  fun_induction unwrap expr with
  | case1 inner ih => exact ih h
  | case2 => exact h

theorem isUnsigned_of_literal? (h : expr.IsUnsigned) (hliteral : literal? expr = some constant) :
    constant.IsUnsigned := by
  have hunwrap := isUnsigned_unwrap h
  unfold literal? at hliteral
  split at hliteral
  case h_1 value hvalue =>
    cases hliteral
    rwa [hvalue] at hunwrap
  case h_4 => cases hliteral
  all_goals
    cases hliteral
    trivial

theorem isUnsigned_ofMember (object : Expr) (member : Except UnsupportedForm String) :
    (ofMember object member).IsUnsigned := by
  unfold ofMember
  split <;> trivial

/-- The initializer that an expression without signed numbers makes. -/
theorem isUnsigned_ofExpr (h : expr.IsUnsigned) : (ofExpr expr).IsUnsigned := by
  have hunwrap := isUnsigned_unwrap h
  unfold ofExpr
  split
  case h_1 value hvalue => rwa [hvalue] at hunwrap
  case h_4 operator operand hoperand =>
    have hinner : operand.IsUnsigned := by rwa [hoperand] at hunwrap
    unfold ofUnary
    split
    case h_1 hconstant => exact isUnsigned_of_literal? hinner hconstant
    all_goals trivial
  all_goals first | trivial | exact isUnsigned_ofMember _ _

theorem isUnsigned_ofExpr? {member : EnumMember} (h : member.HasUnsignedValue) :
    (ofExpr? member.value).IsUnsigned := by
  cases hvalue : member.value with
  | none => trivial
  | some expr => exact isUnsigned_ofExpr (h expr hvalue)

end Initializer

end EnumInline
