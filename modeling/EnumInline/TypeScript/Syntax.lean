import EnumInline.Double.Basic

/-!
The syntax of a source file as far as constant enums go: enum declarations with the expressions that
initialize their members, and the statements that pass names between modules.
-/

namespace EnumInline.TypeScript

inductive UnaryOperator where
  | minus
  | plus
  | complement
  | not
  | typeOf
  | void
  | delete
  deriving DecidableEq, Repr

def UnaryOperator.symbol : UnaryOperator → String
  | .minus => "-"
  | .plus => "+"
  | .complement => "~"
  | .not => "!"
  | .typeOf => "typeof"
  | .void => "void"
  | .delete => "delete"

/-- An expression. The arguments of a call, the elements of a collection, the substitutions of a
template and the parts of every form under `other` are not kept. -/
inductive Expr where
  | number (value : Double)
  | string (text : String)
  /-- A template literal; a substitution stands between each chunk and the next. -/
  | template (chunks : List String)
  /-- A literal that is neither a number nor a text. -/
  | otherLiteral
  | name (text : String)
  | paren (inner : Expr)
  | unary (operator : UnaryOperator) (operand : Expr)
  | member (object : Expr) (property : String)
  | privateMember (object : Expr)
  | index (object key : Expr)
  | binary (left right : Expr)
  | call (callee : Expr)
  | conditional (test yes no : Expr)
  /-- An object or array literal. -/
  | collection
  | other
  deriving DecidableEq, Repr, Inhabited

structure EnumMember where
  name : String
  value : Option Expr
  deriving DecidableEq, Repr

structure EnumDeclaration where
  name : String
  isConst : Bool
  members : List EnumMember
  deriving DecidableEq, Repr

/-- A name together with the name under which a statement passes it on. -/
structure Renaming where
  name : String
  newName : String
  deriving DecidableEq, Repr

/-- A top-level statement. -/
inductive Item where
  | enum (exported : Bool) (declaration : EnumDeclaration)
  | importNames (source : String) (names : List Renaming)
  /-- Names given to other modules, taken from `source` if there is one. -/
  | exportNames (source : Option String) (names : List Renaming)
  | exportAll (source : String)
  | exportDefault (value : Expr)
  | other
  deriving DecidableEq, Repr, Inhabited

end EnumInline.TypeScript
