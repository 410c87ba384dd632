import EnumInline.TypeScript.Grammar.Basic

/-!
Variables, patterns of variables, and the keys of properties.
-/

namespace EnumInline.TypeScript.Parser

/-- Reads the name of a variable that is declared. Some names must not be, and are a fault. -/
def boundName : Parser String := do
  let start ← position
  match ← token with
  | .name text =>
      if unbindableNames.contains text then
        advance
        fault start
        return text
      else identifier
  | _ => fail

def expression (rules : Rules) : Parser Operand := do
  let start ← position
  let first ← rules.assignment
  if ← atMark "," then
    let _ ← repeatUntil rules.fuel (return !(← atMark ",")) do
      advance
      rules.assignment
    return ⟨.other, start, some start⟩
  else return first

/-- Runs a parser between brackets, where restrictions on the phrase around them do not hold. -/
def enclosed {α : Type} (p : Parser α) : Parser α :=
  withReader
    (fun context =>
      { context with inOperator := true, conditionalTypes := true, colonAhead := false }) p

def atPropertyKey : Parser Bool := do
  match ← token with
  | .name _ | .string _ | .number _ | .bigint | .mark "[" | .mark "#" => return true
  | _ => return false

def propertyKey (rules : Rules) : Parser Unit := do
  match ← token with
  | .name _ | .string _ | .number _ | .bigint => advance
  | .mark "[" =>
      advance
      let _ ← enclosed rules.assignment
      expectMark "]"
  | _ => fail

private def initializer (rules : Rules) : Parser Unit := do
  if ← acceptMark "=" then
    let _ ← enclosed rules.assignment

private def patternProperty (rules : Rules) : Parser Unit := do
  if ← acceptMark "..." then rules.binding
  else if (← atIdentifier) && !(← next (atMark ":")) then
    let _ ← boundName
    initializer rules
  else
    propertyKey rules
    expectMark ":"
    rules.binding
    initializer rules

private def patternElement (rules : Rules) : Parser Unit := do
  if ← atMark "," then pure ()
  else
    let _ ← acceptMark "..."
    rules.binding
    initializer rules

/-- A variable or a pattern. -/
def binding (rules : Rules) : Parser Unit := do
  match ← token with
  | .mark "\x7b" =>
      advance
      let _ ← commaList rules.fuel "\x7d" (patternProperty rules)
      expectMark "\x7d"
  | .mark "[" =>
      advance
      let _ ← commaList rules.fuel "]" (patternElement rules)
      expectMark "]"
  | _ =>
      let _ ← boundName

def annotation (rules : Rules) : Parser Unit := do
  if ← acceptMark ":" then withReader (fun c => { c with conditionalTypes := true }) rules.type

private def parameterModifiers : List String :=
  ["public", "private", "protected", "readonly", "override"]

private def atModifiedParameter : Parser Bool := do
  match ← token with
  | .name _ | .mark "\x7b" | .mark "[" => return true
  | _ => return false

private def skipModifiers : Nat → Parser Unit
  | 0 => fail
  | fuel + 1 => do
      if (← atAnyName parameterModifiers) && (← next atModifiedParameter) then
        advance
        skipModifiers fuel

def parameter (rules : Rules) : Parser Unit := do
  if ← acceptMark "..." then
    rules.binding
  else
    skipModifiers 8
    if ← atName "this" then advance else rules.binding
    let _ ← acceptMark "?"
  annotation rules
  initializer rules

def parameters (rules : Rules) : Parser Unit := do
  expectMark "("
  let _ ← enclosed (commaList rules.fuel ")" (parameter rules))
  expectMark ")"

end EnumInline.TypeScript.Parser
