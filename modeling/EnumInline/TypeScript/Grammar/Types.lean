import EnumInline.TypeScript.Grammar.Binding
import EnumInline.TypeScript.Grammar.Template

/-!
Types. They are recognized and not kept.
-/

namespace EnumInline.TypeScript.Parser

/-- Whether an opening angle bracket stands here, alone or as the start of a longer mark. -/
def openAngle : Parser Bool := do
  if ← atMark "<<" then splitMark
  atMark "<"

def typeArguments (rules : Rules) : Parser Unit := do
  let _ ← openAngle
  expectMark "<"
  enclosed do
    let _ ← commaChain rules.fuel rules.type
  expectMark ">"

private def typeParameter (rules : Rules) : Parser Unit := do
  let _ ← repeatUntil 8 (return !((← atAnyName ["const", "in", "out"]) && (← next atWord))) advance
  let _ ← identifier
  if ← acceptName "extends" then rules.type
  if ← acceptMark "=" then rules.type

def typeParameters (rules : Rules) : Parser Unit := do
  expectMark "<"
  let _ ← enclosed (commaList rules.fuel ">" (typeParameter rules))
  expectMark ">"

def typeParametersIfAny (rules : Rules) : Parser Unit := do
  if ← atMark "<" then typeParameters rules

def returnType (rules : Rules) : Parser Unit := do
  let subject : Parser Bool := do return (← atIdentifier) || (← atName "this")
  if (← atName "asserts") && (← nextOnLine subject) then
    advance
    advance
    if (← atName "is") && !(← afterNewline) then
      advance
      rules.type
  else if (← subject) && (← nextOnLine (atName "is")) then
    advance
    advance
    rules.type
  else rules.type

/-- Type parameters, parameters and return type; `arrow` stands before the latter. -/
def signature (rules : Rules) (arrow : String) : Parser Unit := do
  typeParametersIfAny rules
  parameters rules
  if ← acceptMark arrow then returnType rules

private def functionType (rules : Rules) : Parser Unit := do
  typeParametersIfAny rules
  parameters rules
  expectMark "=>"
  returnType rules

/-- Whether the brackets that open here hold the parameters of a function type. -/
private def atFunctionType (rules : Rules) : Parser Bool := do
  if ← atMark "<" then return true
  ahead do
    expectMark "("
    match ← token with
    | .mark ")" | .mark "..." => return true
    | .mark "\x7b" | .mark "[" => rules.binding
    | .name _ => advance
    | _ => fail
    match ← token with
    | .mark ":" | .mark "," | .mark "?" | .mark "=" => return true
    | .mark ")" =>
        advance
        atMark "=>"
    | _ => return false

private def indexSignatureAhead : Parser Bool := ahead do
  expectMark "["
  let _ ← word
  return (← atMark ":") || (← atMark ",")

def indexSignature (rules : Rules) : Parser Unit := do
  expectMark "["
  let _ ← word
  annotation rules
  expectMark "]"
  annotation rules

def atIndexSignature : Parser Bool := indexSignatureAhead

private def expectMemberEnd : Parser Unit := do
  if ← acceptMark "," then pure () else expectStatementEnd

private def memberRest (rules : Rules) : Parser Unit := do
  propertyKey rules
  let _ ← acceptMark "?"
  if (← atMark "(") || (← atMark "<") then signature rules ":"
  else annotation rules

private def typeMember (rules : Rules) : Parser Unit := do
  if (← atMark "(") || (← atMark "<") then signature rules ":"
  else if (← atName "new") && (← next (atAnyMark ["(", "<"])) then
    advance
    signature rules ":"
  else
    if (← atName "readonly") && (← next atPropertyKey) then advance
    if ← atIndexSignature then indexSignature rules
    else
      if (← atAnyName ["get", "set"]) && (← next atPropertyKey) then advance
      memberRest rules
  expectMemberEnd

def typeMembers (rules : Rules) : Parser Unit := do
  expectMark "\x7b"
  let _ ← enclosed (repeatUntil rules.fuel (atMark "\x7d") (typeMember rules))
  expectMark "\x7d"

private def sign : Parser Unit := do
  if ← atAnyMark ["+", "-"] then advance

private def atMappedType : Parser Bool := ahead do
  expectMark "\x7b"
  if ← atAnyMark ["+", "-"] then
    advance
    atName "readonly"
  else
    if (← atName "readonly") && (← next (atMark "[")) then advance
    expectMark "["
    let _ ← word
    atName "in"

private def mappedType (rules : Rules) : Parser Unit := do
  expectMark "\x7b"
  sign
  let _ ← acceptName "readonly"
  expectMark "["
  let _ ← word
  expectName "in"
  enclosed rules.type
  if ← acceptName "as" then enclosed rules.type
  expectMark "]"
  sign
  let _ ← acceptMark "?"
  annotation rules
  let _ ← acceptStatementEnd
  expectMark "\x7d"

private def atLabel : Parser Bool := ahead do
  let _ ← acceptMark "..."
  let _ ← word
  let _ ← acceptMark "?"
  atMark ":"

private def tupleElement (rules : Rules) : Parser Unit := do
  let labelled ← atLabel
  let _ ← acceptMark "..."
  if labelled then
    let _ ← word
    let _ ← acceptMark "?"
    expectMark ":"
  rules.type
  let _ ← acceptMark "?"

private def typeArgumentsOnLine (rules : Rules) : Parser Unit := do
  if !(← afterNewline) && (← openAngle) then typeArguments rules

private def dottedWords (rules : Rules) : Parser Unit := do
  let _ ← repeatUntil rules.fuel (return !(← atMark ".")) do
    advance
    word

private def importType (rules : Rules) : Parser Unit := do
  expectName "import"
  expectMark "("
  let _ ← stringLiteral
  if ← acceptMark "," then
    if !(← atMark ")") then
      let _ ← rules.assignment
      let _ ← acceptMark ","
  expectMark ")"
  dottedWords rules
  typeArgumentsOnLine rules

private def typeQuery (rules : Rules) : Parser Unit := do
  expectName "typeof"
  if ← atName "import" then importType rules
  else
    if ← atName "this" then advance else let _ ← identifier
    let _ ← repeatUntil rules.fuel (return !(← atMark ".")) do
      advance
      let _ ← acceptMark "#"
      word
    typeArgumentsOnLine rules

private def plainTypeNames : List String := ["void", "null", "this", "true", "false"]

/-- Names of types that take no arguments, unless they are the start of a longer name. -/
private def basicTypeNames : List String :=
  ["any", "bigint", "boolean", "intrinsic", "never", "number", "object", "string", "symbol",
    "undefined", "unknown"]

private def primaryType (rules : Rules) : Parser Unit := do
  match ← token with
  | .string _ | .number _ | .bigint => advance
  | .mark "-" =>
      advance
      match ← token with
      | .number _ | .bigint => advance
      | _ => fail
  | .mark "\x60" =>
      let chunks ← template rules.fuel (enclosed rules.type)
      for chunk in chunks do
        if let .error offset := chunk then failAt offset
  | .mark "\x7b" => if ← atMappedType then mappedType rules else typeMembers rules
  | .mark "[" =>
      advance
      let _ ← enclosed (commaList rules.fuel "]" (tupleElement rules))
      expectMark "]"
  | .mark "(" =>
      advance
      enclosed rules.type
      expectMark ")"
  | .name "import" => importType rules
  | .name "typeof" => typeQuery rules
  | .name text =>
      if plainTypeNames.contains text then advance
      else if basicTypeNames.contains text && !(← next (atMark ".")) then advance
      else
        let _ ← identifier
        dottedWords rules
        typeArgumentsOnLine rules
  | _ => fail

private def postfixType (rules : Rules) : Parser Unit := do
  primaryType rules
  let _ ← repeatUntil rules.fuel (return !(← atMark "[") || (← afterNewline)) do
    advance
    if !(← atMark "]") then enclosed rules.type
    expectMark "]"

private def inferredType (rules : Rules) : Parser Unit := do
  let _ ← identifier
  let nested := (← read).conditionalTypes
  if ← atName "extends" then
    let _ ← attempt do
      advance
      withReader (fun context => { context with conditionalTypes := false }) rules.type
      if nested && (← atMark "?") then fail

/-- Operators on types; `fuel` bounds how many follow one another. -/
private def operatorType (rules : Rules) : Nat → Parser Unit
  | 0 => fail
  | fuel + 1 => do
      if (← atAnyName ["keyof", "unique", "readonly"]) && !(← next (atAnyMark [".", "<"])) then
        advance
        operatorType rules fuel
      else if (← atName "infer") && (← next atIdentifier) then
        advance
        inferredType rules
      else postfixType rules

private def chain (rules : Rules) (operator : String) (p : Parser Unit) : Parser Unit := do
  let _ ← acceptMark operator
  p
  let _ ← repeatUntil rules.fuel (return !(← atMark operator)) do
    advance
    p

private def unconditionalType (rules : Rules) : Parser Unit := do
  if ← atFunctionType rules then functionType rules
  else if ← atName "new" then
    advance
    functionType rules
  else if (← atName "abstract") && (← next (atName "new")) then
    advance
    advance
    functionType rules
  else
    chain rules "|" (chain rules "&" do
      if ← atFunctionType rules then functionType rules else operatorType rules rules.fuel)

def type (rules : Rules) : Parser Unit := do
  unconditionalType rules
  if (← read).conditionalTypes && (← atName "extends") && !(← afterNewline) then
    advance
    withReader (fun context => { context with conditionalTypes := false }) rules.type
    expectMark "?"
    rules.type
    expectMark ":"
    rules.type

end EnumInline.TypeScript.Parser
