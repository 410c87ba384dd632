import EnumInline.TypeScript.Grammar.Basic

/-!
Template literals: chunks of text with phrases between them. The same form serves expressions and types.
-/

namespace EnumInline.TypeScript.Parser

/-- Reads a template whose opening mark is the current token. Each chunk is its text, or the position of
a bad escape in it. -/
def template (fuel : Nat) (hole : Parser Unit) : Parser (List (Except Nat (List Char))) := do
  go fuel [] (← current).next
where
  go : Nat → List (Except Nat (List Char)) → Cursor → Parser (List (Except Nat (List Char)))
    | 0, _, _ => fail
    | fuel + 1, soFar, here => do
        match Chunk.read here with
        | .error offset => failAt offset
        | .ok (chunk, after) =>
            let soFar := chunk.text :: soFar
            resume after
            if chunk.hasHole then
              hole
              if ← atMark "\x7d" then go fuel soFar (← current).next else fail
            else return soFar.reverse

end EnumInline.TypeScript.Parser
