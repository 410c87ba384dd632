import EnumInline.Double.Basic
import EnumInline.Text.SourceName

/-!
Tokens of TypeScript source and the places between them. Positions are numbers of characters from the
start of the source.
-/

namespace EnumInline.TypeScript

/-- A place in a source: what is left to read, and how many characters lie before it. -/
structure Cursor where
  rest : List Char
  offset : Nat
  deriving Repr, Inhabited

namespace Cursor

def skip (here : Cursor) (count : Nat) : Cursor := ⟨here.rest.drop count, here.offset + count⟩

/-- The longest run of characters of a class, and the place after it. -/
def run (here : Cursor) (inClass : Char → Bool) : List Char × Cursor :=
  let taken := here.rest.takeWhile inClass
  (taken, here.skip taken.length)

end Cursor

/-- A token. Keywords are names: whether a name is a keyword is for the grammar to say. A closing
angle bracket is always a token of its own, and a slash is always an operator: the grammar asks for
longer operators and for regular expressions where they can stand. -/
inductive Token where
  | name (text : String)
  | number (value : Double)
  | bigint
  | string (text : String)
  | mark (text : String)
  /-- No token: the text breaks a lexical rule at the given position. -/
  | invalid (offset : Nat)
  | endOfSource
  deriving DecidableEq, Repr, Inhabited

/-- A token is one that source can spell: a name has the characters of names, and a number is
written without a sign. -/
def Token.IsSpelled : Token → Prop
  | .name text => Text.isSourceName text.toList = true
  | .number value => value.IsUnsigned
  | _ => True

/-- What reading a token finds: the token, where it starts, the place after it, whether a line ends
before it, and the positions of faults that do not stop the reading. -/
structure Lexeme where
  token : Token
  spelled : token.IsSpelled
  start : Cursor
  next : Cursor
  afterNewline : Bool
  faults : List Nat
  deriving Repr

/-- A piece of a token, with the place after it and the faults found in it. -/
structure Piece (α : Type) where
  value : α
  next : Cursor
  faults : List Nat

end EnumInline.TypeScript
