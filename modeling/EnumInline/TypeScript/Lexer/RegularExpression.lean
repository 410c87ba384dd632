import EnumInline.TypeScript.Lexer.Trivia

/-!
Regular expression literals. The grammar asks for one where a slash cannot be an operator.
-/

namespace EnumInline.TypeScript.RegularExpression

open Text

private structure Progress where
  inClass : Bool := false
  afterBackslash : Bool := false

/-- The place after the closing slash, if the line holds one. A slash in a bracketed class does not
close. -/
private def closing? : Progress → (offset : Nat) → List Char → Option Cursor
  | _, _, [] => none
  | progress, offset, c :: rest =>
      if isLineEnd c then none
      else if progress.afterBackslash then
        closing? { progress with afterBackslash := false } (offset + 1) rest
      else if c == '/' && !progress.inClass then some ⟨rest, offset + 1⟩
      else if c == '\\' then closing? { progress with afterBackslash := true } (offset + 1) rest
      else if c == '[' then closing? { progress with inClass := true } (offset + 1) rest
      else if c == ']' then closing? { progress with inClass := false } (offset + 1) rest
      else closing? progress (offset + 1) rest

private def flagsValid (flags : List Char) : Bool :=
  flags.all "dgimsuvy".toList.contains && flags.eraseDups.length == flags.length

/-- Skips the literal whose opening slash stands here. Unknown and repeated flags are faults. -/
def read (here : Cursor) : Except Nat (Piece Unit) :=
  match closing? {} (here.offset + 1) (here.rest.drop 1) with
  | none => .error here.offset
  | some after =>
      let (flags, next) := after.run continuesName
      .ok ⟨(), next, if flagsValid flags then [] else [here.offset]⟩

end EnumInline.TypeScript.RegularExpression
