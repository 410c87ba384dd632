import EnumInline.Text.Character
import EnumInline.TypeScript.Token

/-!
What may stand between two tokens: blanks, line ends and comments.
-/

namespace EnumInline.TypeScript

open Text

def isLineEnd (c : Char) : Bool :=
  c == '\n' || c == '\r' || c.toNat == 0x2028 || c.toNat == 0x2029

namespace Trivia

inductive Mode where
  | between
  | lineComment
  | blockComment

structure Skipped where
  next : Cursor
  afterNewline : Bool
  faults : List Nat

/-- Skips to the next token. Comments opened as in a web page are a fault, and so is a comment that
never closes; the latter is placed at the end of the source. -/
def skip : Mode → (afterNewline : Bool) → (faults : List Nat) → (offset : Nat) → List Char → Skipped
  | .blockComment, newline, faults, offset, [] => ⟨⟨[], offset⟩, newline, faults ++ [offset]⟩
  | _, newline, faults, offset, [] => ⟨⟨[], offset⟩, newline, faults⟩
  | .lineComment, newline, faults, offset, c :: rest =>
      if isLineEnd c then skip .between true faults (offset + 1) rest
      else skip .lineComment newline faults (offset + 1) rest
  | .blockComment, newline, faults, offset, '*' :: '/' :: rest =>
      skip .between newline faults (offset + 2) rest
  | .blockComment, newline, faults, offset, c :: rest =>
      skip .blockComment (newline || isLineEnd c) faults (offset + 1) rest
  | .between, newline, faults, offset, '/' :: '/' :: rest =>
      skip .lineComment newline faults (offset + 2) rest
  | .between, newline, faults, offset, '/' :: '*' :: rest =>
      skip .blockComment newline faults (offset + 2) rest
  | .between, newline, faults, offset, '<' :: '!' :: '-' :: '-' :: rest =>
      skip .lineComment newline (faults ++ [offset]) (offset + 4) rest
  | .between, true, faults, offset, '-' :: '-' :: '>' :: rest =>
      skip .lineComment true (faults ++ [offset]) (offset + 3) rest
  | .between, newline, faults, offset, c :: rest =>
      if isLineEnd c then skip .between true faults (offset + 1) rest
      else if isBlank c || c.toNat == 0xfeff then skip .between newline faults (offset + 1) rest
      else ⟨⟨c :: rest, offset⟩, newline, faults⟩

end Trivia

/-- The first token stands at the start of a line. -/
def Cursor.skipTrivia (here : Cursor) : Trivia.Skipped :=
  Trivia.skip .between (here.offset == 0) [] here.offset here.rest

end EnumInline.TypeScript
