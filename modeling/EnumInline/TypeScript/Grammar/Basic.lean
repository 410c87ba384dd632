import EnumInline.TypeScript.Lexer
import EnumInline.TypeScript.Syntax

/-!
Recognizing a grammar over tokens. A parser sees one current token and fails at its position. Some rules
are checked without stopping: breaking one is recorded as a fault, and the source is refused in the end,
at the first fault, unless the parser fails before.
-/

namespace EnumInline.TypeScript

/-- What the surroundings of a phrase allow. -/
structure Context where
  /-- Whether elements written as markup are expressions. -/
  markup : Bool
  /-- Whether `in` is an operator here. -/
  inOperator : Bool := true
  /-- Whether a type may go on with `extends`. -/
  conditionalTypes : Bool := true
  /-- Whether a colon closes the phrase, so that it cannot announce a return type. -/
  colonAhead : Bool := false
  inFunction : Bool := false
  /-- Whether a function that can be called with `new` is around the phrase. -/
  hasNewTarget : Bool := false
  inAsync : Bool := false
  inGenerator : Bool := false
  canBreak : Bool := false
  canContinue : Bool := false
  labels : List String := []
  /-- Whether the phrase only describes things that exist elsewhere. -/
  ambient : Bool := false

structure State where
  current : Lexeme
  /-- Where the last token before the current one starts. -/
  previous : Nat
  /-- Where it ends. -/
  previousEnd : Nat
  faults : List Nat

/-- Where and in which state a parser fails. -/
structure Stop where
  offset : Nat
  state : State

abbrev Parser := ReaderT Context (StateT State (Except Stop))

namespace Parser

def current : Parser Lexeme := return (← get).current

def token : Parser Token := return (← get).current.token

/-- The position of the current token. The end of the source counts as right after the last token. -/
def position : Parser Nat := do
  match ← token with
  | .endOfSource => return (← get).previousEnd
  | _ => return (← get).current.start.offset

/-- Whether a line ends before the current token. -/
def afterNewline : Parser Bool := return (← get).current.afterNewline

def failAt {α : Type} (offset : Nat) : Parser α := fun _ state => .error ⟨offset, state⟩

/-- Fails at the current token, or where its text breaks a lexical rule. -/
def fail {α : Type} : Parser α := do
  match ← token with
  | .invalid offset => failAt offset
  | _ => failAt (← position)

/-- Fails where the current token starts, whatever it is; at the end of the source, where the last one
does. -/
def failAtStart {α : Type} : Parser α := do
  match ← token with
  | .endOfSource => failAt (← get).previous
  | _ => failAt (← position)

/-- Fails unless there is a token that keeps the lexical rules. -/
def requireToken : Parser Unit := do
  match ← token with
  | .invalid _ | .endOfSource => fail
  | _ => pure ()

def fault (offset : Nat) : Parser Unit :=
  modify fun state => { state with faults := state.faults ++ [offset] }

def faultIf (broken : Bool) (offset : Nat) : Parser Unit := if broken then fault offset else pure ()

/-- Makes the lexeme the current one. -/
private def enter (lexeme : Lexeme) : Parser Unit :=
  modify fun state => { state with current := lexeme, faults := state.faults ++ lexeme.faults }

/-- Goes on with the token after the given place. -/
def resume (here : Cursor) : Parser Unit := do
  let start ← position
  modify fun state => { state with previous := start, previousEnd := here.offset }
  enter here.nextLexeme

/-- Goes on to the next token. -/
def advance : Parser Unit := do resume (← current).next

/-- Replaces the current token by a longer or shorter one that starts at the same place. -/
def respell (token : Token) (spelled : token.IsSpelled) (next : Cursor) : Parser Unit :=
  modify fun state => { state with current := { state.current with token, spelled, next } }

/-- Fails at a place in text that the current token opens. The token is lost, so that no operator is
seen in it. -/
def failWithin {α : Type} (offset : Nat) : Parser α := do
  respell (.invalid offset) trivial (← current).next
  fail

def atMark (text : String) : Parser Bool := return (← token) == .mark text

def atName (text : String) : Parser Bool := return (← token) == .name text

def atEnd : Parser Bool := return (← token) == .endOfSource

def atAnyMark (texts : List String) : Parser Bool := do
  match ← token with
  | .mark text => return texts.contains text
  | _ => return false

def atAnyName (texts : List String) : Parser Bool := do
  match ← token with
  | .name text => return texts.contains text
  | _ => return false

/-- Whether the current token is a name of any kind. -/
def atWord : Parser Bool := do
  match ← token with
  | .name _ => return true
  | _ => return false

/-- Whether the current token is a name that is not reserved. -/
def atIdentifier : Parser Bool := do
  match ← token with
  | .name text => return !isReserved text
  | _ => return false

def atString : Parser Bool := do
  match ← token with
  | .string _ => return true
  | _ => return false

/-- Passes over the mark if it is the current token. -/
def acceptMark (text : String) : Parser Bool := do
  if ← atMark text then advance; return true else return false

def acceptName (text : String) : Parser Bool := do
  if ← atName text then advance; return true else return false

def expectMark (text : String) : Parser Unit := do
  if ← atMark text then advance else fail

def expectName (text : String) : Parser Unit := do
  if ← atName text then advance else fail

/-- Reads any name, reserved or not. -/
def word : Parser String := do
  match ← token with
  | .name text => advance; return text
  | _ => fail

/-- Reads a name that is not reserved. -/
def identifier : Parser String := do
  match ← token with
  | .name text => if isReserved text then fail else advance; return text
  | _ => fail

def stringLiteral : Parser String := do
  match ← token with
  | .string text => advance; return text
  | _ => fail

/-- Whether a statement may end before the current token without a semicolon. -/
def atStatementEnd : Parser Bool := do
  match ← token with
  | .mark ";" | .mark "\x7d" | .endOfSource => return true
  | _ => afterNewline

def acceptStatementEnd : Parser Bool := do
  if ← acceptMark ";" then return true else atStatementEnd

def expectStatementEnd : Parser Unit := do
  if ← acceptStatementEnd then pure () else fail

/-- Runs a parser and forgets what it did if it fails. -/
def attempt {α : Type} (p : Parser α) : Parser (Option α) := fun context state =>
  match p context state with
  | .ok (value, after) => .ok (some value, after)
  | .error _ => .ok (none, state)

/-- Runs a parser. If it fails, goes on from the token at which it does. -/
def salvage {α : Type} (p : Parser α) : Parser (Except Nat α) := fun context state =>
  match p context state with
  | .ok (value, after) => .ok (.ok value, after)
  | .error stop => .ok (.error stop.offset, stop.state)

/-- Whether a parser succeeds here and yields `true`; nothing is passed over. -/
def ahead (p : Parser Bool) : Parser Bool := fun context state =>
  match p context state with
  | .ok (found, _) => .ok (found, state)
  | .error _ => .ok (false, state)

/-- Whether the token after the current one satisfies a test. -/
def next (p : Parser Bool) : Parser Bool := ahead do
  advance
  p

/-- Whether the token after the current one is on the same line and satisfies a test. -/
def nextOnLine (p : Parser Bool) : Parser Bool := next do
  if ← afterNewline then return false else p

/-- Repeats a parser until a test holds; `fuel` bounds the number of rounds. -/
def repeatUntil {α : Type} (fuel : Nat) (stop : Parser Bool) (p : Parser α) : Parser (List α) :=
  go fuel []
where
  go : Nat → List α → Parser (List α)
    | 0, _ => fail
    | fuel + 1, soFar => do
        if ← stop then return soFar.reverse
        let value ← p
        go fuel (value :: soFar)

/-- Phrases set apart by commas, up to a closing mark that is not passed over. A comma may end them. -/
def commaList {α : Type} (fuel : Nat) (close : String) (p : Parser α) : Parser (List α) :=
  repeatUntil fuel (atMark close) do
    let value ← p
    if ← atMark close then pure () else expectMark ","
    return value

/-- Phrases set apart by commas, at least one and without a comma at the end. -/
def commaChain {α : Type} (fuel : Nat) (p : Parser α) : Parser (List α) := do
  let first ← p
  let rest ← repeatUntil fuel (return !(← atMark ",")) do
    advance
    p
  return first :: rest

/-- The current closing angle bracket together with what directly follows it and makes it an operator. -/
def joinAngles : Parser Unit := do
  let lexeme ← current
  if lexeme.token != .mark ">" then return
  let longer := [">>>=", ">>>", ">>=", ">>", ">="].find? fun text =>
    text.toList.isPrefixOf lexeme.start.rest
  match longer with
  | some text => respell (.mark text) trivial (lexeme.start.skip text.length)
  | none => pure ()

/-- Takes the first character of the current mark as a mark of its own. -/
def splitMark : Parser Unit := do
  let lexeme ← current
  match lexeme.start.rest with
  | c :: _ => respell (.mark (String.singleton c)) trivial (lexeme.start.skip 1)
  | [] => pure ()

end Parser

/-- An expression that is read: where it starts, and the place that keeps it from being assigned to, if
there is one. -/
structure Operand where
  value : Expr
  start : Nat
  unassignable : Option Nat

/-- The phrases that contain one another. The rules of the grammar are stated over a stand-in for each
of them, good for `fuel` levels of nesting and rounds of repetition. -/
structure Rules where
  fuel : Nat
  /-- An expression without a comma at its top. -/
  assignment : Parser Operand
  /-- An expression that names or calls something, without operators. -/
  leftHand : Parser Operand
  type : Parser Unit
  /-- A variable, or a pattern of variables. -/
  binding : Parser Unit
  statement : Parser Unit
  item : Parser Item
  /-- An element written as markup, from its opening bracket to the character after its end. -/
  element : Parser Cursor

end EnumInline.TypeScript
