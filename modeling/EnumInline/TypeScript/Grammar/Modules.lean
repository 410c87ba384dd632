import EnumInline.TypeScript.Grammar.Statements

/-!
Imports and exports.
-/

namespace EnumInline.TypeScript.Parser

/-- A name as another module sees it, which may be any text. -/
private def exportedName : Parser String := do
  match ← token with
  | .string text => advance; return text
  | _ => word

private def attributesIfAny (rules : Rules) : Parser Unit := do
  if !(← afterNewline) && (← atAnyName ["with", "assert"]) then
    advance
    let _ ← objectLiteral rules

private def fromClause (rules : Rules) : Parser String := do
  expectName "from"
  let source ← stringLiteral
  attributesIfAny rules
  return source

/-- What follows the word `type` in a list of names, if the word stands for itself or marks the name
after it. The names `as` and `type` need no alias to be told apart from the words. -/
def typeMarked (target : Parser String) : Parser Renaming := do
  let first ← word
  if first != "as" then
    if ← acceptName "as" then return ⟨first, ← target⟩ else return ⟨first, first⟩
  else if !(← atWord) then return ⟨"as", "as"⟩
  else
    let second ← target
    if second != "as" then return ⟨"type", second⟩
    else if ← atWord then return ⟨"as", ← target⟩
    else return ⟨"type", "as"⟩

def importSpecifier : Parser Renaming := do
  let start ← position
  if ← atString then
    let name ← stringLiteral
    if ← acceptName "as" then return ⟨name, ← boundName⟩ else failAt start
  let name ← word
  if name == "type" && (← atWord) then typeMarked boundName
  else if ← acceptName "as" then return ⟨name, ← boundName⟩
  else if isReserved name then failAt start
  else return ⟨name, name⟩

private def entityOrRequire (rules : Rules) : Parser Unit := do
  if (← atName "require") && (← next (atMark "(")) then
    advance
    advance
    let _ ← stringLiteral
    expectMark ")"
  else
    let _ ← identifier
    let _ ← repeatUntil rules.fuel (return !(← atMark ".")) do
      advance
      word
  expectStatementEnd

/-- The default name of an import, if it has one; `type` before it is passed over. -/
def importDefault? : Parser (Option String) := do
  if !(← atIdentifier) then return none
  if (← atName "type") && (← next (atAnyMark ["*", "\x7b"])) then
    advance
    return none
  let isMarker : Parser Bool := next do
    return (← atIdentifier) && (!(← atName "from") || (← next (atAnyName ["from"])) ||
      (← next (atMark "=")))
  if (← atName "type") && (← isMarker) then advance
  return some (← boundName)

def importNames (rules : Rules) : Parser (List Renaming) := do
  if ← acceptMark "*" then
    expectName "as"
    let _ ← boundName
    return []
  else
    if ← atMark "\x7b" then advance else failAtStart
    let names ← commaList rules.fuel "\x7d" importSpecifier
    expectMark "\x7d"
    return names

def importItem (rules : Rules) : Parser Item := do
  expectName "import"
  if ← atString then
    let _ ← stringLiteral
    attributesIfAny rules
    let _ ← acceptStatementEnd
    return .other
  let default? ← importDefault?
  if default?.isSome && (← acceptMark "=") then
    entityOrRequire rules
    return .other
  let others ←
    if default?.isNone || (← acceptMark ",") then importNames rules else pure []
  let source ← fromClause rules
  expectStatementEnd
  let defaults := default?.toList.map fun name => ⟨"default", name⟩
  return .importNames source (defaults ++ others)

private def exportSpecifier : Parser (Nat × Renaming) := do
  let start ← position
  let isText ← atString
  let name ← exportedName
  if name == "type" && !isText && (← atWord) then return (start, ← typeMarked exportedName)
  else if ← acceptName "as" then return (start, ⟨name, ← exportedName⟩)
  else return (start, ⟨name, name⟩)

/-- Names for export in braces. Without another module to take them from, a keyword or a mere text is a
fault. -/
def namedExports (rules : Rules) : Parser Item := do
  let checked : Parser (Option Nat × Renaming) := do
    let isText ← atString
    let (start, names) ← exportSpecifier
    return (if isText || isKeyword names.name then some start else none, names)
  expectMark "\x7b"
  let names ← commaList rules.fuel "\x7d" checked
  expectMark "\x7d"
  let pairs := names.map Prod.snd
  if ← atName "from" then
    let source ← fromClause rules
    let _ ← acceptStatementEnd
    return .exportNames (some source) pairs
  else
    for (start?, _) in names do
      if let some start := start? then fault start
    let _ ← acceptStatementEnd
    return .exportNames none pairs

def starExport (rules : Rules) : Parser Item := do
  expectMark "*"
  let isNamespace ← acceptName "as"
  if isNamespace then
    let _ ← exportedName
  let source ← fromClause rules
  let _ ← acceptStatementEnd
  return if isNamespace then .exportNames (some source) [] else .exportAll source

def defaultExport (rules : Rules) : Parser Item := do
  if (← atName "abstract") && (← nextOnLine (atName "class")) then
    advance
    classDefinition rules false
    return .other
  else if ← atName "interface" then typeLevelDeclaration rules
  else if ← atName "class" then
    classDefinition rules false
    return .other
  else if (← atName "async") && (← nextOnLine (atName "function")) then
    advance
    function rules true false
    return .other
  else if ← atName "function" then
    function rules false false
    return .other
  else
    let value ← rules.assignment
    expectStatementEnd
    return .exportDefault value.value

def Item.exported : Item → Item
  | .enum _ declaration => .enum true declaration
  | item => item

def valueExport (rules : Rules) : Parser Item := do
  if ← atName "class" then
    classDefinition rules true
    return .other
  else if (← atName "async") && (← nextOnLine (atName "function")) then
    advance
    function rules true true
    return .other
  else if ← atName "function" then
    function rules false true
    return .other
  else if (← atName "const") && (← next (atName "enum")) then
    return Item.exported (← constEnum rules)
  else if (← atAnyName ["var", "const", "let"]) && (← atVariableStatement) then
    variableStatement rules
    return .other
  else if ← atMark "*" then starExport rules
  else namedExports rules

def importAlias (rules : Rules) : Parser Item := do
  if (← atName "type") && (← next atIdentifier) then advance
  let _ ← word
  expectMark "="
  entityOrRequire rules
  return .other

def afterExport (rules : Rules) : Parser Item := do
  if ← acceptName "import" then importAlias rules
  else if ← acceptMark "=" then
    let _ ← expression rules
    expectStatementEnd
    return .other
  else if ← acceptName "as" then
    expectName "namespace"
    let _ ← identifier
    expectStatementEnd
    return .other
  else if ← acceptName "type" then
    if ← atMark "*" then starExport rules else namedExports rules
  else if ← acceptName "default" then defaultExport rules
  else valueExport rules

def exportItem (rules : Rules) : Parser Item := do
  expectName "export"
  if ← acceptName "declare" then
    if let some item ← ambientDeclaration? rules then return Item.exported item
  if ← atAnyName ["abstract", "enum", "interface", "module", "namespace", "type"] then
    if let some item ← attempt (typeLevelDeclaration rules) then return Item.exported item
  afterExport rules

/-- A statement of a module. -/
def item (rules : Rules) : Parser Item := do
  match ← token with
  | .name "import" =>
      if ← next (atAnyMark ["(", "."]) then statement rules else importItem rules
  | .name "export" => exportItem rules
  | _ => statement rules

end EnumInline.TypeScript.Parser
