/-!
Lines and columns of places in a text. Both count from one. Columns count 16-bit units, of which a
character beyond the first 65536 takes two.
-/

namespace EnumInline.Text

structure Location where
  line : Nat
  column : Nat
  deriving DecidableEq, Repr

namespace Location

/-- The number of 16-bit units that a character takes. -/
def unitCount (c : Char) : Nat := if c.toNat < 0x10000 then 1 else 2

/-- Walks `offset` characters on from a location. A line ends after a line feed, and after a carriage
return that no line feed follows; a line end that closes the text opens no further line. -/
def walk (here : Location) : (offset : Nat) → List Char → Location
  | 0, _ | _, [] => here
  | offset + 1, c :: rest =>
      let ends := (c == '\n' || (c == '\r' && rest.head? != some '\n')) && !rest.isEmpty
      walk (if ends then ⟨here.line + 1, 1⟩ else ⟨here.line, here.column + unitCount c⟩) offset rest

def ofOffset (source : List Char) (offset : Nat) : Location := walk ⟨1, 1⟩ offset source

end Location

end EnumInline.Text
