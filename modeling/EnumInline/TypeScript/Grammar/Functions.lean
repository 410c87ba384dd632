import EnumInline.TypeScript.Grammar.Types

/-!
Functions and classes.
-/

namespace EnumInline.TypeScript.Parser

/-- Statements in braces. -/
def block (rules : Rules) : Parser Unit := do
  expectMark "\x7b"
  let _ ← enclosed (repeatUntil rules.fuel (atMark "\x7d") rules.statement)
  expectMark "\x7d"

structure FunctionKind where
  isAsync : Bool := false
  isGenerator : Bool := false

def inFunction {α : Type} (kind : FunctionKind) (p : Parser α) : Parser α :=
  withReader
    (fun context =>
      { context with
        inFunction := true, hasNewTarget := true, inAsync := kind.isAsync,
        inGenerator := kind.isGenerator, canBreak := false, canContinue := false, labels := [], ambient := false }) p

def functionBody (rules : Rules) (kind : FunctionKind) : Parser Unit :=
  inFunction kind (block rules)

/-- The parameters and the return type of a function of the given kind. -/
def functionSignature (rules : Rules) (kind : FunctionKind) : Parser Unit :=
  withReader
    (fun context =>
      { context with hasNewTarget := true, inAsync := kind.isAsync, inGenerator := kind.isGenerator })
    (signature rules ":")

/-- What follows the name of a function that may be only described. -/
def functionRest (rules : Rules) (kind : FunctionKind) : Parser Unit := do
  functionSignature rules kind
  if ← atMark "\x7b" then functionBody rules kind else expectStatementEnd

/-- A function from its keyword on, `async` having been passed over. -/
def function (rules : Rules) (isAsync needsName : Bool) : Parser Unit := do
  expectName "function"
  let kind : FunctionKind := ⟨isAsync, ← acceptMark "*"⟩
  if needsName || (← atIdentifier) then
    let _ ← boundName
  functionRest rules kind

private def memberModifiers : List String :=
  ["declare", "public", "private", "protected", "static", "override", "abstract", "readonly",
    "accessor"]

/-- Whether the word at hand is a modifier: something that it can modify follows. -/
private def modifies : Parser Bool := next do
  match ← token with
  | .name _ | .string _ | .number _ | .mark "[" | .mark "#" | .mark "*" | .mark "\x7b" =>
      return !(← afterNewline)
  | _ => return false

private def staticBlockAhead : Parser Bool := do
  return (← atName "static") && (← next (atMark "\x7b"))

private def skipMemberModifiers : Nat → Parser Unit
  | 0 => fail
  | fuel + 1 => do
      if (← atAnyName memberModifiers) && (← modifies) && !(← staticBlockAhead) then
        advance
        skipMemberModifiers fuel

private def memberKey (rules : Rules) : Parser Unit := do
  if ← acceptMark "#" then
    let _ ← word
  else propertyKey rules

private def startsKey : Parser Bool := do
  return (← atPropertyKey) || (← atMark "*")

private def classMemberRest (rules : Rules) (kind : FunctionKind) : Parser Unit := do
  if ← atAnyMark ["?", "!"] then advance
  if (← atMark "(") || (← atMark "<") then functionRest rules kind
  else
    annotation rules
    if ← acceptMark "=" then
      inFunction {} do
        let _ ← enclosed rules.assignment
    expectStatementEnd

private def classMember (rules : Rules) : Parser Unit := do
  if ← acceptMark ";" then pure ()
  else if ← staticBlockAhead then
    advance
    inFunction {} (block rules)
  else
    skipMemberModifiers 16
    if ← atIndexSignature then
      indexSignature rules
      expectStatementEnd
    else
      let isAsync := (← atName "async") && (← nextOnLine startsKey)
      if isAsync then advance
      let isGenerator ← acceptMark "*"
      if (← atAnyName ["get", "set"]) && (← next atPropertyKey) then advance
      memberKey rules
      classMemberRest rules ⟨isAsync, isGenerator⟩

private def heritage (rules : Rules) : Parser Unit := do
  if ← acceptName "extends" then
    let _ ← rules.leftHand
    if ← openAngle then typeArguments rules
  if ← acceptName "implements" then
    let _ ← commaChain rules.fuel rules.type

def classDefinition (rules : Rules) (needsName : Bool) : Parser Unit := do
  expectName "class"
  if needsName || ((← atIdentifier) && !(← atName "implements")) then
    let _ ← boundName
  typeParametersIfAny rules
  heritage rules
  expectMark "\x7b"
  let _ ← enclosed (repeatUntil rules.fuel (atMark "\x7d") (classMember rules))
  expectMark "\x7d"

end EnumInline.TypeScript.Parser
