import EnumInline.Double.Word
import EnumInline.Enum.Literal

/-!
The value of a member: a literal as it is written, with the operator before it. No arithmetic is done on
it, except where a later member counts on from it.
-/

namespace EnumInline

structure MemberValue where
  operator : Option PrefixOperator
  literal : Literal
  deriving DecidableEq, Repr

namespace MemberValue

def ofLiteral (literal : Literal) : MemberValue := ⟨none, literal⟩

/-- The value that a member without an initializer gets by counting. -/
def ordinal (value : Double) : MemberValue := ofLiteral (.number value)

def chars (value : MemberValue) : List Char :=
  value.operator.toList.map PrefixOperator.symbol ++ value.literal.chars

def text (value : MemberValue) : String := String.ofList value.chars

/-- The number from which the next member counts on, if the value is one. -/
def numeric? : MemberValue → Option Double
  | ⟨_, .string _⟩ | ⟨some .not, .number _⟩ => none
  | ⟨none, .number value⟩ | ⟨some .plus, .number value⟩ => some value
  | ⟨some .minus, .number value⟩ => some value.negate
  | ⟨some .complement, .number value⟩ => some value.complement

/-- The value of a member without an initializer that follows a member with this value. -/
def next? (value : MemberValue) : Option MemberValue :=
  value.numeric?.map fun number => ordinal (number.add .one)

end MemberValue

end EnumInline
