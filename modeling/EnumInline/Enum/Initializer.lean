import EnumInline.Enum.Literal
import EnumInline.TypeScript.Syntax

/-!
What the initializer of a member says about its value. Brackets never matter.
-/

namespace EnumInline

open TypeScript

/-- Forms of expressions that are no constants here. -/
inductive UnsupportedForm where
  | memberOfNonName
  | computedMember
  | privateMember
  | operatorOnNonLiteral
  | operator (symbol : String)
  | binary
  | call
  | template
  | otherLiteral
  | conditional
  | collection
  | other
  deriving DecidableEq, Repr

def UnsupportedForm.description : UnsupportedForm → String
  | .memberOfNonName => "member access on a non-identifier"
  | .computedMember => "computed member access"
  | .privateMember => "private member access"
  | .operatorOnNonLiteral => "unary operator on a non-literal operand"
  | .operator symbol => "unary \"" ++ symbol ++ "\" expression"
  | .binary => "binary expression"
  | .call => "call expression"
  | .template => "template literal with substitutions"
  | .otherLiteral => "literal that is neither a number nor a string"
  | .conditional => "conditional expression"
  | .collection => "object or array literal"
  | .other => "non-constant expression"

inductive Initializer where
  | literal (operator : Option PrefixOperator) (literal : Literal)
  /-- The value of a member, of the enum `qualifier` names or else of the same enum. -/
  | reference (qualifier : Option String) (member : String)
  /-- No initializer: the member counts on from the one before it. -/
  | implicit
  | unsupported (form : UnsupportedForm)
  deriving DecidableEq, Repr

namespace Initializer

/-- The expression inside any number of brackets. -/
def unwrap : Expr → Expr
  | .paren inner => unwrap inner
  | expr => expr

def literal? (expr : Expr) : Option Literal :=
  match unwrap expr with
  | .number value => some (.number value)
  | .string text => some (.string text)
  | .template [text] => some (.string text)
  | _ => none

def prefixOperator? : UnaryOperator → Option PrefixOperator
  | .minus => some .minus
  | .plus => some .plus
  | .complement => some .complement
  | .not => some .not
  | .typeOf | .void | .delete => none

def ofUnary (operator : UnaryOperator) (operand : Expr) : Initializer :=
  match prefixOperator? operator, literal? operand with
  | some operator, some constant => .literal (some operator) constant
  | some _, none => .unsupported .operatorOnNonLiteral
  | none, _ => .unsupported (.operator operator.symbol)

def ofMember (object : Expr) (member : Except UnsupportedForm String) : Initializer :=
  match unwrap object, member with
  | .name qualifier, .ok member => .reference (some qualifier) member
  | .name _, .error form => .unsupported form
  | _, _ => .unsupported .memberOfNonName

def memberOfKey (key : Expr) : Except UnsupportedForm String :=
  match literal? key with
  | some (.string text) => .ok text
  | _ => .error .computedMember

def ofExpr (expr : Expr) : Initializer :=
  match unwrap expr with
  | .number value => .literal none (.number value)
  | .string text => .literal none (.string text)
  | .template [text] => .literal none (.string text)
  | .unary operator operand => ofUnary operator operand
  | .member object member => ofMember object (.ok member)
  | .index object key => ofMember object (memberOfKey key)
  | .privateMember object => ofMember object (.error .privateMember)
  | .name member => .reference none member
  | .binary _ _ => .unsupported .binary
  | .call _ => .unsupported .call
  | .template _ => .unsupported .template
  | .otherLiteral => .unsupported .otherLiteral
  | .conditional _ _ _ => .unsupported .conditional
  | .collection => .unsupported .collection
  | .paren _ | .other => .unsupported .other

def ofExpr? : Option Expr → Initializer
  | none => .implicit
  | some expr => ofExpr expr

end Initializer

end EnumInline
