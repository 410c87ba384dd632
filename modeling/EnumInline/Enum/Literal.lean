import EnumInline.Double.Text
import EnumInline.Json.Quoted

/-!
Literals that a member can be initialized with.
-/

namespace EnumInline

inductive Literal where
  | number (value : Double)
  | string (text : String)
  deriving DecidableEq, Repr

def Literal.chars : Literal → List Char
  | .number value => value.text
  | .string text => Json.quote text.toList

def Literal.text (literal : Literal) : String := String.ofList literal.chars

/-- An operator that may stand before a literal. -/
inductive PrefixOperator where
  | minus
  | plus
  | complement
  | not
  deriving DecidableEq, Repr

def PrefixOperator.symbol : PrefixOperator → Char
  | .minus => '-'
  | .plus => '+'
  | .complement => '~'
  | .not => '!'

end EnumInline
