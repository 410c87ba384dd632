import EnumInline.TypeScript.Grammar.Expressions

/-!
Elements written as markup inside expressions. The text between tags is read character by character, so
these phrases end at a place and not at a token.
-/

namespace EnumInline.TypeScript.Parser

open Text

private def namePart : Parser String := do
  match ← token with
  | .name _ =>
      let (text, after) := (← current).start.run fun c => continuesName c || c == '-'
      resume after
      return String.ofList text
  | _ => fail

private def markupName (rules : Rules) : Parser String := do
  let first ← namePart
  let rest ← repeatUntil rules.fuel (return !(← atAnyMark [".", ":"])) do
    let join := if ← atMark "." then "." else ":"
    advance
    return join ++ (← namePart)
  return rest.foldl (· ++ ·) first

private def attributeText (here : Cursor) : Parser Unit := do
  match here.rest with
  | quote :: rest =>
      let text := rest.takeWhile (· != quote)
      let close : Cursor := ⟨rest.drop text.length, here.offset + 1 + text.length⟩
      if close.rest.isEmpty then failWithin close.offset else resume (close.skip 1)
  | [] => failWithin here.offset

private def attributeValue (rules : Rules) : Parser Unit := do
  let after := (← current).next.skipTrivia.next
  if after.rest.head?.any (fun c => c == '"' || c == '\'') then attributeText after
  else
    advance
    if ← acceptMark "\x7b" then
      let _ ← enclosed rules.assignment
      expectMark "\x7d"
    else if ← atMark "<" then resume (← rules.element)
    else fail

private def elementAttribute (rules : Rules) : Parser Unit := do
  if ← acceptMark "\x7b" then
    expectMark "..."
    let _ ← enclosed rules.assignment
    expectMark "\x7d"
  else
    let _ ← markupName rules
    if ← atMark "=" then attributeValue rules

/-- The place after the closing bracket that is the current token. -/
private def closeTag : Parser Cursor := do
  if ← atMark ">" then return (← current).next else fail

private def closingName (rules : Rules) (name : Option String) (start : Nat) : Parser Cursor := do
  match name with
  | none => closeTag
  | some name =>
      let found ← markupName rules
      if found == name then closeTag else failWithin start

private def substitution (rules : Rules) (here : Cursor) : Parser Cursor := do
  resume (here.skip 1)
  if !(← atMark "\x7d") then
    let _ ← acceptMark "..."
    let _ ← enclosed (expression rules)
  if ← atMark "\x7d" then return (← current).next else fail

/-- What stands between an opening and a closing tag, and the closing tag; `fuel` bounds the number of
pieces. -/
private def children (rules : Rules) (name : Option String) : Nat → Cursor → Parser Cursor
  | 0, _ => fail
  | fuel + 1, here => do
      let (_, after) := here.run fun c => !("<>\x7b\x7d".toList.contains c)
      match after.rest with
      | [] => failWithin here.offset
      | '\x7b' :: _ => children rules name fuel (← substitution rules after)
      | '<' :: _ =>
          resume after
          if ← next (atMark "/") then
            advance
            advance
            closingName rules name after.offset
          else children rules name fuel (← rules.element)
      | _ =>
          fault after.offset
          children rules name fuel (after.skip 1)

def element (rules : Rules) : Parser Cursor := do
  expectMark "<"
  if ← atMark ">" then children rules none rules.fuel (← current).next
  else
    let name ← markupName rules
    if ← openAngle then typeArguments rules
    let _ ← repeatUntil rules.fuel (atAnyMark ["/", ">"]) (elementAttribute rules)
    if ← acceptMark "/" then closeTag
    else children rules (some name) rules.fuel (← current).next

end EnumInline.TypeScript.Parser
