import EnumInline.Markup.Element

/-!
The TypeScript in a markup file. Everything else is blanked, so that lines and columns stay those of the
file.
-/

namespace EnumInline.Markup

/-- A stretch of a markup file. -/
inductive Piece where
  | plain (text : List Char)
  | element (element : Element)

/-- A text with every character but line feeds made blank. -/
def blanked (text : List Char) : List Char := text.map fun c => if c = '\n' then c else ' '

/-- Divides a text into script elements and what is between them; `fuel` bounds the number of opening
brackets. -/
def pieces : (fuel : Nat) → List Char → List Piece
  | 0, text => [.plain text]
  | fuel + 1, text =>
      let before := text.takeWhile (· != '<')
      match text.drop before.length with
      | [] => [.plain before]
      | c :: rest =>
          match Element.read? (c :: rest) with
          | some (element, after) => .plain before :: .element element :: pieces fuel after
          | none => .plain (before ++ [c]) :: pieces fuel rest

namespace Piece

def script : Piece → List Char
  | .plain text => blanked text
  | .element found =>
      let body := if found.script?.isSome then found.body else blanked found.body
      blanked found.opening ++ blanked found.attributes ++ ' ' :: body ++ blanked found.closing

def script? : Piece → Option Bool
  | .plain _ => none
  | .element found => found.script?

end Piece

/-- The TypeScript of a markup file, in place. -/
structure ScriptBlocks where
  text : List Char
  /-- Whether elements are expressions in one of the blocks. -/
  elements : Bool
  deriving DecidableEq, Repr

/-- The TypeScript of a markup file, if it holds any. -/
def ScriptBlocks.extract? (source : List Char) : Option ScriptBlocks :=
  let pieces := pieces (source.length + 1) source
  let scripts := pieces.filterMap Piece.script?
  if scripts.isEmpty then none else some ⟨pieces.flatMap Piece.script, scripts.any id⟩

end EnumInline.Markup
