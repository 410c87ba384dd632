import EnumInline.TypeScript.Grammar.Expressions

/-!
Statements and declarations. Enum declarations are kept, all else is recognized only.
-/

namespace EnumInline.TypeScript.Parser

private inductive VariableKind where
  | constant
  | other
  deriving DecidableEq

private def atLoopSubject : Parser Bool := atAnyName ["of", "in"]

private def declarator (rules : Rules) (kind : VariableKind) (inLoop : Bool) : Parser Unit := do
  let start ← position
  let isPattern ← atAnyMark ["\x7b", "["]
  rules.binding
  let _ ← acceptMark "!"
  annotation rules
  if ← acceptMark "=" then
    let _ ← rules.assignment
  else if inLoop && (← atLoopSubject) then pure ()
  else if (← read).ambient then pure ()
  else if kind = .constant then fault start
  else if isPattern then failAt start

private def moreDeclarators (rules : Rules) (kind : VariableKind) (inLoop : Bool) : Nat → Parser Unit
  | 0 => fail
  | fuel + 1 => do
      if ← acceptMark "," then
        if (← atMark ";") || (← atEnd) then fault (← get).previous
        else
          declarator rules kind inLoop
          moreDeclarators rules kind inLoop fuel

/-- Declarators set apart by commas. A comma at the end of the statement is a fault, and so is a
statement without declarators. -/
private def declarators (rules : Rules) (kind : VariableKind) (inLoop : Bool) : Parser Unit := do
  if (← atMark ";") || (← atEnd) then fault (← get).previousEnd
  else
    declarator rules kind inLoop
    moreDeclarators rules kind inLoop rules.fuel

private def skipStatement : Nat → Parser Unit
  | 0 => fail
  | fuel + 1 => do
      if ← acceptStatementEnd then pure ()
      else
        advance
        skipStatement fuel

/-- Variables from their keyword on. What follows them without a semicolon is a fault and skipped. -/
private def variableList (rules : Rules) (kind : VariableKind) : Parser Unit := do
  advance
  declarators rules kind false
  if ← acceptStatementEnd then pure ()
  else
    fault (← position)
    let _ ← attempt (expression rules)
    skipStatement rules.fuel

private def variableKind : Parser VariableKind := do
  return if ← atName "const" then .constant else .other

private def opensBinding : Parser Bool := do
  match ← token with
  | .name text => return !isKeyword text || ["enum", "package"].contains text
  | .mark "\x7b" | .mark "[" => return true
  | _ => return false

private def atVariables : Parser Bool := do
  if ← atAnyName ["var", "const"] then return true
  else if ← atName "let" then next opensBinding
  else if ← atName "using" then
    nextOnLine do return (← atIdentifier) && !(← atLoopSubject)
  else return false

def enumMemberName (rules : Rules) : Parser String := do
  let start ← position
  match ← token with
  | .string text => advance; return text
  | .number _ =>
      advance
      fault start
      return ""
  | .mark "[" =>
      advance
      let _ ← enclosed (expression rules)
      fault start
      expectMark "]"
      return ""
  | _ => word

/-- A member of an enum. A mark after its name that cannot stand there is a fault and counts as a
comma. -/
def enumMember (rules : Rules) : Parser EnumMember := do
  let name ← enumMemberName rules
  if ← acceptMark "=" then return ⟨name, some (← rules.assignment).value⟩
  else if (← atAnyMark [",", "\x7d"]) then return ⟨name, none⟩
  else if ← atEnd then fail
  else
    fault (← position)
    respell (.mark ",") trivial (← current).next
    return ⟨name, none⟩

/-- The members of an enum. A missing comma is a fault. -/
def enumMembers (rules : Rules) : Parser (List EnumMember) :=
  repeatUntil rules.fuel (atMark "\x7d") do
    let member ← enumMember rules
    if (← acceptMark ",") || (← atMark "\x7d") then pure ()
    else if ← atEnd then fail
    else fault (← position)
    return member

def enumDeclaration (rules : Rules) (isConst : Bool) : Parser EnumDeclaration := do
  expectName "enum"
  let name ← word
  expectMark "\x7b"
  let members ← enclosed (enumMembers rules)
  expectMark "\x7d"
  return ⟨name, isConst, members⟩

private def typeReference (rules : Rules) : Parser Unit := do
  let _ ← rules.leftHand
  if ← openAngle then typeArguments rules

private def interface (rules : Rules) : Parser Unit := do
  expectName "interface"
  let _ ← word
  typeParametersIfAny rules
  if ← acceptName "extends" then
    let _ ← commaChain rules.fuel (typeReference rules)
  typeMembers rules

private def typeAlias (rules : Rules) : Parser Unit := do
  expectName "type"
  let _ ← identifier
  typeParametersIfAny rules
  expectMark "="
  rules.type
  expectStatementEnd

private def items (rules : Rules) : Parser Unit := do
  expectMark "\x7b"
  let _ ← enclosed (repeatUntil rules.fuel (atMark "\x7d") rules.item)
  expectMark "\x7d"

private def namespaceDeclaration (rules : Rules) : Parser Unit := do
  advance
  if ← atString then
    advance
    if ← atMark "\x7b" then items rules else expectStatementEnd
  else
    let _ ← identifier
    let _ ← repeatUntil rules.fuel (return !(← atMark ".")) do
      advance
      identifier
    items rules

private def atNamespace : Parser Bool := do
  if ← atName "namespace" then nextOnLine atIdentifier
  else if ← atName "module" then nextOnLine (do return (← atIdentifier) || (← atString))
  else return false

/-- Whether a declaration starts here that only types and enums know. -/
private def atTypeLevelDeclaration : Parser Bool := do
  match ← token with
  | .name "enum" => return true
  | .name "interface" => next atWord
  | .name "type" => nextOnLine atIdentifier
  | .name "abstract" => nextOnLine (atName "class")
  | _ => atNamespace

def typeLevelDeclaration (rules : Rules) : Parser Item := do
  match ← token with
  | .name "enum" => return .enum false (← enumDeclaration rules false)
  | .name "interface" => interface rules; return .other
  | .name "type" => typeAlias rules; return .other
  | .name "abstract" =>
      advance
      classDefinition rules true
      return .other
  | _ => namespaceDeclaration rules; return .other

private def atDeclaration : Parser Bool := do
  match ← token with
  | .name text =>
      return ["function", "class", "const", "var", "let", "enum", "interface", "type", "abstract",
        "namespace", "module", "global"].contains text
  | _ => return false

private def atConstEnum : Parser Bool := do
  return (← atName "const") && (← next (atName "enum"))

/-- An enum whose values are to be inlined. -/
def constEnum (rules : Rules) : Parser Item := do
  expectName "const"
  return .enum false (← enumDeclaration rules true)

/-- A declaration of something that exists elsewhere, `declare` having been passed over. Yields nothing
if no declaration starts here. -/
def ambientDeclaration? (rules : Rules) : Parser (Option Item) :=
  withReader (fun context => { context with ambient := true }) do
    match ← token with
    | .name "function" => function rules false true; return some .other
    | .name "class" => classDefinition rules true; return some .other
    | .name "global" =>
        advance
        items rules
        return some .other
    | _ =>
        if ← atConstEnum then return some (← constEnum rules)
        else if ← atAnyName ["const", "var", "let"] then
          variableList rules (← variableKind)
          return some .other
        else if ← atAnyName ["enum", "interface", "type", "abstract", "namespace", "module"] then
          return some (← typeLevelDeclaration rules)
        else return none

private def condition (rules : Rules) : Parser Unit := do
  expectMark "("
  let _ ← enclosed (expression rules)
  expectMark ")"

/-- A statement that another one governs. A function or a class there is a fault, and variables cannot be
declared but by `var`. -/
private def governedStatement (rules : Rules) : Parser Unit := do
  let start ← position
  faultIf (← atAnyName ["function", "class"]) start
  if ← atName "let" then
    let _ ← expression rules
    expectStatementEnd
  else if (← atName "const") && !(← atConstEnum) then fail
  else rules.statement

private def loopBody (rules : Rules) : Parser Unit :=
  withReader (fun context => { context with canBreak := true, canContinue := true })
    (governedStatement rules)

private def ifStatement (rules : Rules) : Parser Unit := do
  advance
  condition rules
  governedStatement rules
  if ← acceptName "else" then governedStatement rules

private def whileStatement (rules : Rules) : Parser Unit := do
  advance
  condition rules
  loopBody rules

private def doStatement (rules : Rules) : Parser Unit := do
  advance
  loopBody rules
  expectName "while"
  condition rules
  let _ ← acceptMark ";"

private def forHead (rules : Rules) : Parser Unit := do
  if ← atMark ";" then pure ()
  else
    withReader (fun context => { context with inOperator := false }) do
      if ← atVariables then
        let kind ← variableKind
        advance
        declarators rules kind true
      else
        let subject ← expression rules
        if ← atLoopSubject then
          if let some offset := subject.unassignable then failAt offset
  if ← atName "of" then
    advance
    let _ ← rules.assignment
  else if ← atName "in" then
    advance
    let _ ← expression rules
  else
    expectMark ";"
    if !(← atMark ";") then
      let _ ← expression rules
    expectMark ";"
    if !(← atMark ")") then
      let _ ← expression rules

private def forStatement (rules : Rules) : Parser Unit := do
  advance
  let _ ← acceptName "await"
  expectMark "("
  enclosed (forHead rules)
  expectMark ")"
  loopBody rules

private def switchCase (rules : Rules) : Parser Unit := do
  if ← acceptName "default" then pure ()
  else
    expectName "case"
    let _ ← expression rules
  expectMark ":"
  let stop : Parser Bool := do
    return (← atAnyName ["case", "default"]) || (← atMark "\x7d")
  let _ ← repeatUntil rules.fuel stop rules.statement

private def switchStatement (rules : Rules) : Parser Unit := do
  advance
  condition rules
  expectMark "\x7b"
  withReader (fun context => { context with canBreak := true }) do
    let _ ← enclosed (repeatUntil rules.fuel (atMark "\x7d") (switchCase rules))
  expectMark "\x7d"

private def tryStatement (rules : Rules) : Parser Unit := do
  advance
  block rules
  let caught ← acceptName "catch"
  if caught then
    if ← acceptMark "(" then
      rules.binding
      annotation rules
      expectMark ")"
    block rules
  let start ← position
  if ← acceptName "finally" then block rules else faultIf (!caught) start

private def jumpLabel? : Parser (Option String) := do
  if (← atIdentifier) && !(← afterNewline) then return some (← identifier) else return none

private def breakStatement : Parser Unit := do
  let start ← position
  let context ← read
  advance
  match ← jumpLabel? with
  | some label => faultIf (!context.labels.contains label) start
  | none => faultIf (!context.canBreak) start
  expectStatementEnd

private def continueStatement : Parser Unit := do
  let start ← position
  let context ← read
  advance
  match ← jumpLabel? with
  | some label => faultIf (!context.canContinue || !context.labels.contains label) start
  | none => faultIf (!context.canContinue) start
  expectStatementEnd

private def returnStatement (rules : Rules) : Parser Unit := do
  let start ← position
  advance
  if !(← atStatementEnd) then
    let _ ← expression rules
  expectStatementEnd
  faultIf (!(← read).inFunction) start

private def throwStatement (rules : Rules) : Parser Unit := do
  advance
  if (← afterNewline) || (← atEnd) then failAtStart
  let _ ← expression rules
  expectStatementEnd

private def withStatement (rules : Rules) : Parser Unit := do
  fault (← position)
  advance
  condition rules
  governedStatement rules

/-- A statement with a label. A label in use and a label on a function are faults. -/
private def labelled (rules : Rules) : Parser Unit := do
  let start ← position
  let label ← identifier
  expectMark ":"
  let labels := (← read).labels
  withReader (fun context => { context with canBreak := true, labels := label :: labels }) do
    if ← atName "function" then
      let start ← position
      function rules false true
      fault start
    else governedStatement rules
  faultIf (labels.contains label) start

private def expressionStatement (rules : Rules) : Parser Unit := do
  if (← atIdentifier) && (← next (atMark ":")) then labelled rules
  else
    let _ ← expression rules
    expectStatementEnd

private def keywordStatement? (rules : Rules) : String → Option (Parser Unit)
  | "if" => some (ifStatement rules)
  | "for" => some (forStatement rules)
  | "while" => some (whileStatement rules)
  | "do" => some (doStatement rules)
  | "switch" => some (switchStatement rules)
  | "try" => some (tryStatement rules)
  | "break" => some breakStatement
  | "continue" => some continueStatement
  | "return" => some (returnStatement rules)
  | "throw" => some (throwStatement rules)
  | "with" => some (withStatement rules)
  | "debugger" => some do
      advance
      expectStatementEnd
  | "function" => some (function rules false true)
  | "class" => some (classDefinition rules true)
  | _ => none

def namedStatement (rules : Rules) (text : String) : Parser Item := do
  if let some p := keywordStatement? rules text then
    p
    return .other
  else if ← atConstEnum then constEnum rules
  else if ← atVariables then
    variableList rules (← variableKind)
    return .other
  else if text == "await" && (← nextOnLine do return (← atName "using") && (← atVariables)) then
    advance
    variableList rules .other
    return .other
  else if text == "async" && (← nextOnLine (atName "function")) then
    advance
    function rules true true
    return .other
  else if text == "export" then fail
  else if text == "import" && !(← next (atAnyMark ["(", "."])) then fail
  else if text == "declare" && (← next atDeclaration) then
    advance
    return (← ambientDeclaration? rules).getD .other
  else if text == "global" && (← next (atMark "\x7b")) then
    advance
    items rules
    return .other
  else if ← atTypeLevelDeclaration then typeLevelDeclaration rules
  else
    expressionStatement rules
    return .other

/-- A statement that is neither an import nor an export. -/
def statement (rules : Rules) : Parser Item := do
  match ← token with
  | .mark "\x7b" => block rules; return .other
  | .mark ";" => advance; return .other
  | .name text => namedStatement rules text
  | _ => expressionStatement rules; return .other

/-- Variables, with their keyword as the current token. -/
def variableStatement (rules : Rules) : Parser Unit := do
  variableList rules (← variableKind)

/-- Whether a declaration of variables starts here. -/
def atVariableStatement : Parser Bool := atVariables

end EnumInline.TypeScript.Parser
