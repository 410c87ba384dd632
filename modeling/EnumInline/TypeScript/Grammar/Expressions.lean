import EnumInline.TypeScript.Grammar.Functions

/-!
Expressions. What constant evaluation tells apart is kept; other forms are recognized only.
-/

namespace EnumInline.TypeScript.Parser

def operandAt (start : Nat) (value : Expr) : Operand := ⟨value, start, some start⟩

private def templateLiteral (rules : Rules) : Parser (List String) := do
  let chunks ← template rules.fuel do
    let _ ← enclosed (expression rules)
  chunks.mapM fun chunk =>
    match chunk with
    | .ok text => return String.ofList text
    | .error offset => failAt offset

private def regularExpression : Parser Unit := do
  match RegularExpression.read (← current).start with
  | .error offset => failWithin offset
  | .ok piece =>
      for offset in piece.faults do fault offset
      resume piece.next

private def arrayElement (rules : Rules) : Parser (Option Nat) := do
  if ← atMark "," then return none
  let _ ← acceptMark "..."
  return (← rules.assignment).unassignable

def arrayLiteral (rules : Rules) : Parser Operand := do
  let start ← position
  expectMark "["
  let elements ← enclosed (commaList rules.fuel "]" (arrayElement rules))
  expectMark "]"
  return ⟨.collection, start, elements.findSome? id⟩

private def endsShorthand : Parser Bool := atAnyMark [",", "\x7d", "="]

private def method (rules : Rules) (start : Nat) (kind : FunctionKind) : Parser (Option Nat) := do
  functionSignature rules kind
  functionBody rules kind
  return some start

private def objectProperty (rules : Rules) : Parser (Option Nat) := do
  let start ← position
  if ← acceptMark "..." then return (← rules.assignment).unassignable
  let startsKey : Parser Bool := do return (← atPropertyKey) || (← atMark "*")
  let isAsync := (← atName "async") && (← nextOnLine startsKey)
  if isAsync then advance
  let isGenerator ← acceptMark "*"
  let isAccessor := !isAsync && !isGenerator && (← atAnyName ["get", "set"]) && (← next atPropertyKey)
  if isAccessor then advance
  let plain := !isAsync && !isGenerator && !isAccessor
  if plain && (← atWord) && (← next endsShorthand) then
    let _ ← identifier
    if ← acceptMark "=" then
      let _ ← rules.assignment
    return none
  propertyKey rules
  if plain && (← acceptMark ":") then return (← rules.assignment).unassignable
  method rules start ⟨isAsync, isGenerator⟩

def objectLiteral (rules : Rules) : Parser Operand := do
  let start ← position
  expectMark "\x7b"
  let properties ← enclosed (commaList rules.fuel "\x7d" (objectProperty rules))
  expectMark "\x7d"
  return ⟨.collection, start, properties.findSome? id⟩

def bracketed (rules : Rules) : Parser Operand := do
  let start ← position
  expectMark "("
  if ← atMark ")" then failAt start
  let inner ← enclosed (expression rules)
  expectMark ")"
  let unassignable := if inner.value = .collection then some start else inner.unassignable
  return ⟨.paren inner.value, start, unassignable⟩

private def argument (rules : Rules) : Parser Unit := do
  let _ ← acceptMark "..."
  let _ ← rules.assignment

def arguments (rules : Rules) : Parser Unit := do
  expectMark "("
  let _ ← enclosed (commaList rules.fuel ")" (argument rules))
  expectMark ")"

private def indexKey (rules : Rules) : Parser Expr := do
  expectMark "["
  let key ← enclosed (expression rules)
  expectMark "]"
  return key.value

/-- The operators between two expressions, with how tightly they bind. -/
private def precedence? : Token → Option Nat
  | .mark "??" | .mark "||" => some 1
  | .mark "&&" => some 2
  | .mark "|" => some 3
  | .mark "^" => some 4
  | .mark "&" => some 5
  | .mark "==" | .mark "!=" | .mark "===" | .mark "!==" => some 6
  | .mark "<" | .mark ">" | .mark "<=" | .mark ">=" | .name "in" | .name "instanceof" => some 7
  | .mark "<<" | .mark ">>" | .mark ">>>" => some 8
  | .mark "+" | .mark "-" => some 9
  | .mark "*" | .mark "/" | .mark "%" => some 10
  | .mark "**" => some 11
  | _ => none

private def startsExpression : Token → Bool
  | .name text =>
      !isReserved text ||
        ["this", "null", "true", "false", "function", "class", "new", "super", "import", "typeof",
          "void", "delete", "await", "yield"].contains text
  | .number _ | .bigint | .string _ => true
  | .mark text => ["(", "[", "\x7b", "\x60", "+", "-", "~", "!", "++", "--", "/", "/=", "#", "<"].contains text
  | .invalid _ | .endOfSource => false

/-- Whether type arguments that end here belong to an expression and are no comparisons. -/
private def closesTypeArguments : Parser Bool := do
  match ← token with
  | .mark "(" | .mark "\x60" => return true
  | .mark "<" | .mark ">" | .mark "+" | .mark "-" => return false
  | token => return (← afterNewline) || (precedence? token).isSome || !startsExpression token

/-- Passes over type arguments if they start here. -/
private def acceptTypeArguments (rules : Rules) : Parser Bool := do
  let found ← attempt do
    if !(← openAngle) then fail
    typeArguments rules
    if ← closesTypeArguments then pure () else fail
  return found.isSome

/-- An operand whose members are read off, and whether that stops at a missing value. -/
structure Subject where
  operand : Operand
  optional : Bool

def Subject.extend (subject : Subject) (value : Expr) (unassignable : Bool) : Subject :=
  let start := subject.operand.start
  let value := if subject.optional then .other else value
  let assignable := !unassignable && !subject.optional
  ⟨⟨value, start, if assignable then none else some start⟩, subject.optional⟩

def memberName (subject : Subject) : Parser Subject := do
  let object := subject.operand.value
  if ← acceptMark "#" then
    let _ ← word
    return subject.extend (.privateMember object) false
  else return subject.extend (.member object (← word)) false

def optionalMember (rules : Rules) (subject : Subject) : Parser Subject := do
  expectMark "?."
  if ← atMark "[" then
    let _ ← indexKey rules
  else if ← atMark "(" then arguments rules
  else if ← openAngle then
    typeArguments rules
    arguments rules
  else
    let _ ← acceptMark "#"
    let _ ← word
  return { subject with optional := true }.extend .other true

/-- Reads members and calls off a subject; `fuel` bounds their number. -/
def subscripts (rules : Rules) (calls : Bool) : Nat → Subject → Parser Operand
  | 0, _ => fail
  | fuel + 1, subject => do
      let object := subject.operand.value
      let go := subscripts rules calls fuel
      match ← token with
      | .mark "." =>
          advance
          go (← memberName subject)
      | .mark "?." =>
          if calls then go (← optionalMember rules subject) else fail
      | .mark "[" =>
          let key ← indexKey rules
          go (subject.extend (.index object key) false)
      | .mark "(" =>
          if calls then
            arguments rules
            go (subject.extend (.call object) true)
          else return subject.operand
      | .mark "\x60" =>
          let _ ← template rules.fuel do
            let _ ← enclosed (expression rules)
          go (subject.extend .other true)
      | .mark "!" =>
          if ← afterNewline then return subject.operand
          advance
          go (subject.extend .other subject.operand.unassignable.isSome)
      | .mark "<" | .mark "<<" =>
          if ← acceptTypeArguments rules then
            if calls || !(← atMark "(") then go (subject.extend .other true)
            else return subject.operand
          else return subject.operand
      | _ => return subject.operand

def superMember (rules : Rules) : Parser Expr := do
  expectName "super"
  if ← acceptMark "." then
    let _ ← acceptMark "#"
    let _ ← word
    return .other
  else if ← atMark "[" then
    let _ ← indexKey rules
    return .other
  else
    arguments rules
    return .call .other

def importCall (rules : Rules) : Parser Expr := do
  expectName "import"
  if ← acceptMark "." then
    expectName "meta"
    return .other
  else
    arguments rules
    return .call .other

mutual

/-- An expression that is no operation; `fuel` bounds how many `new` follow one another. -/
def primary (rules : Rules) : Nat → Parser Operand
  | 0 => fail
  | fuel + 1 => do
      let start ← position
      let here := operandAt start
      match ← token with
      | .number value => advance; return here (.number value)
      | .string text => advance; return here (.string text)
      | .bigint => advance; return here .otherLiteral
      | .mark "\x60" => return here (.template (← templateLiteral rules))
      | .mark "(" => bracketed rules
      | .mark "[" => arrayLiteral rules
      | .mark "\x7b" => objectLiteral rules
      | .mark "/" | .mark "/=" =>
          regularExpression
          return here .otherLiteral
      | .mark "#" =>
          advance
          let _ ← word
          if ← atName "in" then return here .other else fail
      | .mark "<" =>
          if (← read).markup then
            resume (← rules.element)
            return here .other
          else fail
      | .name "function" =>
          function rules false false
          return here .other
      | .name "class" =>
          classDefinition rules false
          return here .other
      | .name "async" =>
          if ← nextOnLine (atName "function") then
            advance
            function rules true false
            return here .other
          else
            advance
            return ⟨.name "async", start, none⟩
      | .name "this" => advance; return here .other
      | .name "null" | .name "true" | .name "false" => advance; return here .otherLiteral
      | .name "super" => return ⟨← superMember rules, start, none⟩
      | .name "import" => return here (← importCall rules)
      | .name "new" => creation rules fuel
      | .name "let" | .name "static" =>
          fault start
          return ⟨.name (← word), start, none⟩
      | .name _ =>
          let text ← identifier
          return ⟨.name text, start, none⟩
      | _ => failAtStart

def creation (rules : Rules) : Nat → Parser Operand
  | 0 => fail
  | fuel + 1 => do
      let start ← position
      expectName "new"
      if ← acceptMark "." then
        expectName "target"
        faultIf (!(← read).hasNewTarget) start
        return operandAt start .other
      let callee ← primary rules fuel
      let _ ← subscripts rules false rules.fuel ⟨callee, false⟩
      if ← atMark "(" then arguments rules
      return operandAt start .other

end

def leftHand (rules : Rules) : Parser Operand := do
  subscripts rules true rules.fuel ⟨← primary rules rules.fuel, false⟩

private def checkTarget (operand : Operand) : Parser Unit := do
  match operand.unassignable with
  | some offset => fault offset
  | none =>
      match operand.value with
      | .name text => faultIf (text == "eval" || text == "arguments") operand.start
      | .collection => fault operand.start
      | _ => pure ()

private def unaryOperator? : Token → Option UnaryOperator
  | .mark "-" => some .minus
  | .mark "+" => some .plus
  | .mark "~" => some .complement
  | .mark "!" => some .not
  | .name "typeof" => some .typeOf
  | .name "void" => some .void
  | .name "delete" => some .delete
  | _ => none

def postfixed (rules : Rules) : Parser Operand := do
  let operand ← rules.leftHand
  if (← atAnyMark ["++", "--"]) && !(← afterNewline) then
    checkTarget operand
    advance
    return operandAt operand.start .other
  else return operand

private def typeAssertion (rules : Rules) : Parser Unit := do
  expectMark "<"
  if (← atName "const") then advance else enclosed rules.type
  expectMark ">"

/-- An operand that may be missing, which is a fault. -/
def tolerated (operand : Parser Operand) : Parser Operand := do
  let start ← position
  match ← salvage operand with
  | .ok operand => return operand
  | .error offset =>
      fault offset
      return operandAt start .other

/-- An operand with the operators before it; `fuel` bounds their number. -/
def unary (rules : Rules) : Nat → Parser Operand
  | 0 => fail
  | fuel + 1 => do
      let start ← position
      match unaryOperator? (← token) with
      | some operator =>
          advance
          let operand ← tolerated (unary rules fuel)
          let unnamed := match operator, operand.value with
            | .delete, .name _ => true
            | _, _ => false
          faultIf unnamed operand.start
          return operandAt start (.unary operator operand.value)
      | none =>
          match ← token with
          | .mark "++" | .mark "--" =>
              advance
              checkTarget (← unary rules fuel)
              return operandAt start .other
          | .mark "<" =>
              if (← read).markup then postfixed rules
              else
                typeAssertion rules
                return { ← unary rules fuel with value := .other, start }
          | .name "await" =>
              advance
              if ((← atAnyMark [")", "]", ","]) || (← atStatementEnd)) && !(← read).inAsync then
                fault start
                return operandAt start .other
              faultIf ((← read).inFunction && !(← read).inAsync) (← position)
              let _ ← unary rules fuel
              return operandAt start .other
          | _ => postfixed rules

private def atConversion : Parser Bool := do
  return (← atAnyName ["as", "satisfies"]) && !(← afterNewline)

def conversion (rules : Rules) (operand : Operand) : Parser Operand := do
  advance
  if ← atName "const" then advance
  else withReader (fun context => { context with conditionalTypes := true }) rules.type
  return { operand with value := .other }

structure Operation where
  operand : Operand
  operator? : Option Token := none

/-- Whether an operand may not stand beside `??` without brackets. -/
private def Operation.isLogical (operation : Operation) : Bool :=
  operation.operator? == some (.mark "||") || operation.operator? == some (.mark "&&")

/-- Extends an operation by the operators that bind more tightly than `minimum`; `fuel` bounds their
number and nesting. -/
def operations (rules : Rules) : Nat → (minimum : Nat) → Operation → Parser Operation
  | 0, _, _ => fail
  | fuel + 1, minimum, left => do
      if minimum < 7 && (← atConversion) then
        operations rules fuel minimum ⟨← conversion rules left.operand, none⟩
      else
        joinAngles
        let operator ← token
        let level := (precedence? operator).getD 0
        if level ≤ minimum || (operator == .name "in" && !(← read).inOperator) then return left
        advance
        let power := operator == .mark "**"
        let leftIsUnary := match left.operand.value with
          | .unary _ _ => true
          | _ => false
        if power && leftIsUnary then fail
        let first ← unary rules rules.fuel
        let right ← operations rules fuel (if power then level - 1 else level) ⟨first, none⟩
        if operator == .mark "??" then
          faultIf left.isLogical left.operand.start
          faultIf right.isLogical right.operand.start
        let value := Expr.binary left.operand.value right.operand.value
        operations rules fuel minimum ⟨operandAt left.operand.start value, some operator⟩

/-- The first operand of an operation. If it is missing before an operator, that is a fault. -/
def firstOperand (rules : Rules) : Parser Operand := do
  let start ← position
  match ← salvage (unary rules rules.fuel) with
  | .ok operand => return operand
  | .error offset =>
      requireToken
      let operator ← token
      if (precedence? operator).isSome && (operator != .name "in" || (← read).inOperator) then
        fault (← position)
        return operandAt start .other
      else failAt offset

def conditional (rules : Rules) : Parser Operand := do
  let test := (← operations rules rules.fuel 0 ⟨← firstOperand rules, none⟩).operand
  if ← acceptMark "?" then
    let yes ← withReader
      (fun context => { context with inOperator := true, colonAhead := true }) rules.assignment
    expectMark ":"
    let no ← withReader (fun context => { context with colonAhead := false }) rules.assignment
    return operandAt test.start (.conditional test.value yes.value no.value)
  else return test

private def arrowBody (rules : Rules) (kind : FunctionKind) : Parser Unit := do
  let outer ← read
  inFunction kind do
    withReader (fun context => { context with hasNewTarget := outer.hasNewTarget }) do
      if ← atMark "\x7b" then block rules
      else
        let _ ← rules.assignment

private def expectArrow : Parser Unit := do
  if ← afterNewline then fail else expectMark "=>"

/-- The parameters of an arrow function up to its arrow; tells whether they come with a return type. -/
private def arrowHead (rules : Rules) (kind : FunctionKind) : Parser Bool := do
  typeParametersIfAny rules
  withReader (fun context => { context with inAsync := kind.isAsync }) (parameters rules)
  let typed ← acceptMark ":"
  if typed then enclosed (returnType rules)
  expectArrow
  return typed

/-- Passes over an arrow function whose parameters are in brackets, if one starts here. Before a colon
that closes the surrounding phrase, one with a return type must leave that colon. -/
private def acceptBracketed (rules : Rules) (kind : FunctionKind) : Parser Bool := do
  let before ← get
  let head ← attempt do
    if kind.isAsync then advance
    arrowHead rules kind
  match head with
  | none => return false
  | some typed =>
      if typed && (← read).colonAhead then
        let body ← attempt do
          arrowBody rules kind
          if ← atMark ":" then pure () else fail
        if body.isNone then set before
        return body.isSome
      else
        arrowBody rules kind
        return true

private def atBareParameter : Parser Bool := do
  return (← atIdentifier) && (← nextOnLine (atMark "=>"))

private def bareArrowFunction (rules : Rules) (kind : FunctionKind) : Parser Unit := do
  let _ ← boundName
  expectArrow
  arrowBody rules kind

/-- Passes over an arrow function if one starts here. -/
private def acceptArrowFunction (rules : Rules) : Parser Bool := do
  if ← atBareParameter then
    bareArrowFunction rules {}
    return true
  else if (← atMark "(") || (← atMark "<") then acceptBracketed rules {}
  else if (← atName "async") && (← nextOnLine atBareParameter) then
    advance
    bareArrowFunction rules { isAsync := true }
    return true
  else if (← atName "async") && (← nextOnLine (atAnyMark ["(", "<"])) then
    acceptBracketed rules { isAsync := true }
  else return false

private def assignmentOperators : List String :=
  ["+=", "-=", "*=", "/=", "%=", "**=", "<<=", ">>=", ">>>=", "&=", "|=", "^=", "&&=", "||=", "??="]

private def yieldExpression (rules : Rules) : Parser Unit := do
  expectName "yield"
  if (← afterNewline) then pure ()
  else if ← acceptMark "*" then
    let _ ← rules.assignment
  else if startsExpression (← token) then
    let _ ← rules.assignment

def assignment (rules : Rules) : Parser Operand := do
  let start ← position
  if (← atName "yield") && (← read).inGenerator then
    yieldExpression rules
    return operandAt start .other
  requireToken
  if ← acceptArrowFunction rules then return operandAt start .other
  let target ← conditional rules
  joinAngles
  if ← atMark "=" then
    if let some offset := target.unassignable then failAt offset
    match target.value with
    | .name text => faultIf (text == "eval" || text == "arguments") target.start
    | _ => pure ()
    advance
    let _ ← rules.assignment
    return ⟨.other, start, none⟩
  else if ← atAnyMark assignmentOperators then
    checkTarget target
    advance
    let _ ← rules.assignment
    return operandAt start .other
  else return target

end EnumInline.TypeScript.Parser
