import EnumInline.Text.Location
import EnumInline.TypeScript.Grammar.Markup
import EnumInline.TypeScript.Grammar.Modules

/-!
Reading a whole source. The rules of the grammar are tied together level by level: at each level the
phrases inside a phrase are those of the level below, and a source with `n` characters needs a number of
levels that is linear in `n`.
-/

namespace EnumInline.TypeScript

/-- The rules of the grammar for phrases of bounded nesting. -/
def Rules.ofDepth : Nat → Rules
  | 0 =>
      { fuel := 0, assignment := Parser.fail, leftHand := Parser.fail, type := Parser.fail,
        binding := Parser.fail, statement := Parser.fail, item := Parser.fail,
        element := Parser.fail }
  | depth + 1 =>
      { fuel := depth + 1
        assignment := fun context state => Parser.assignment (ofDepth depth) context state
        leftHand := fun context state => Parser.leftHand (ofDepth depth) context state
        type := fun context state => Parser.type (ofDepth depth) context state
        binding := fun context state => Parser.binding (ofDepth depth) context state
        statement := fun context state =>
          (discard (Parser.statement (ofDepth depth)) : Parser Unit) context state
        item := fun context state => Parser.item (ofDepth depth) context state
        element := fun context state => Parser.element (ofDepth depth) context state }

/-- A depth that no source of the given length can exceed. -/
def Rules.depthFor (length : Nat) : Nat := 16 * (length + 4)

/-- The place where tokens start: a first line that names an interpreter is passed over. -/
def Cursor.ofSource : List Char → Cursor
  | '#' :: '!' :: rest =>
      let line := rest.takeWhile fun c => !isLineEnd c
      ⟨rest.drop line.length, line.length + 2⟩
  | source => ⟨source, 0⟩

private def items (length : Nat) : Parser (List Item) :=
  let rules := Rules.ofDepth (Rules.depthFor length)
  Parser.repeatUntil rules.fuel Parser.atEnd rules.item

/-- Reads the statements of a source, or finds the position where it breaks the rules first. -/
def readItems (markup : Bool) (source : List Char) : Except Nat (List Item) :=
  let first := (Cursor.ofSource source).nextLexeme
  match items source.length { markup } ⟨first, 0, 0, first.faults⟩ with
  | .error stop => .error stop.offset
  | .ok (found, state) =>
      match state.faults with
      | [] => .ok found
      | offset :: _ => .error offset

/-- Reads a source, without the mark that may come before its text. Elements written as markup are
expressions only if `markup` holds. -/
def parse (markup : Bool) (source : List Char) : Except Text.Location (List Item) :=
  let text := if source.head?.any (·.toNat == 0xfeff) then source.drop 1 else source
  (readItems markup text).mapError (Text.Location.ofOffset text)

end EnumInline.TypeScript
