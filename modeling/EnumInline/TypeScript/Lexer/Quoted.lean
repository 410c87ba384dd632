import EnumInline.TypeScript.Lexer.Escape

/-!
String literals and the chunks of template literals.
-/

namespace EnumInline.TypeScript

/-- Reads the body of a string on from the place after its opening quote at `start`. `skip` characters
belong to an escape that is already read. A string ends unclosed, which is a fault, at a line end or at
the end of the source. -/
def Quoted.readBody (quote : Char) (start : Nat) :
    (soFar : List Char) → (faults : List Nat) → (skip offset : Nat) → List Char →
      Except Nat (Piece (List Char))
  | soFar, faults, _, offset, [] => .ok ⟨soFar.reverse, ⟨[], offset⟩, faults ++ [start]⟩
  | soFar, faults, skip + 1, offset, _ :: rest =>
      readBody quote start soFar faults skip (offset + 1) rest
  | soFar, faults, 0, offset, c :: rest =>
      if c = quote then .ok ⟨soFar.reverse, ⟨rest, offset + 1⟩, faults⟩
      else if c = '\\' then
        match Escape.read false offset rest with
        | .error fault => .error fault
        | .ok escape =>
            readBody quote start (escape.text.reverse ++ soFar) (faults ++ escape.faults)
              escape.length (offset + 1) rest
      else if c == '\n' || c == '\r' then
        .ok ⟨soFar.reverse, ⟨c :: rest, offset⟩, faults ++ [start]⟩
      else readBody quote start (c :: soFar) faults 0 (offset + 1) rest

/-- Reads the string literal whose opening quote stands here. -/
def Quoted.read (here : Cursor) : Except Nat (Piece (List Char)) :=
  match here.rest with
  | quote :: rest => readBody quote here.offset [] [] 0 (here.offset + 1) rest
  | [] => .error here.offset

/-- A chunk of a template: its text with escapes decoded and line ends made uniform, or the position of
its first bad escape; and whether a substitution follows it. -/
structure Chunk where
  text : Except Nat (List Char)
  hasHole : Bool

/-- Adds an escape, or the position of a bad one, to the text read so far. -/
private def Chunk.addEscape (soFar : Except Nat (List Char)) (escape : Except Nat Escape) :
    Except Nat (List Char) :=
  match soFar, escape with
  | .ok text, .ok escape => .ok (escape.text.reverse ++ text)
  | .ok _, .error fault => .error fault
  | .error fault, _ => .error fault

/-- Reads a template chunk up to its closing mark or its substitution; fails at the end of the source. -/
def Chunk.readBody : (soFar : Except Nat (List Char)) → (skip offset : Nat) → List Char →
    Except Nat (Chunk × Cursor)
  | _, _, offset, [] => .error offset
  | soFar, skip + 1, offset, _ :: rest => readBody soFar skip (offset + 1) rest
  | soFar, 0, offset, '$' :: '\x7b' :: rest =>
      .ok (⟨soFar.map List.reverse, true⟩, ⟨rest, offset + 2⟩)
  | soFar, 0, offset, '\r' :: '\n' :: rest => readBody (soFar.map ('\n' :: ·)) 0 (offset + 2) rest
  | soFar, 0, offset, c :: rest =>
      if c == '\x60' then .ok (⟨soFar.map List.reverse, false⟩, ⟨rest, offset + 1⟩)
      else if c == '\\' then
        let escape := Escape.read true offset rest
        let length := match escape with
          | .ok escape => escape.length
          | .error _ => 1
        readBody (addEscape soFar escape) length (offset + 1) rest
      else readBody (soFar.map ((if c == '\r' then '\n' else c) :: ·)) 0 (offset + 1) rest

def Chunk.read (here : Cursor) : Except Nat (Chunk × Cursor) :=
  readBody (.ok []) 0 here.offset here.rest

end EnumInline.TypeScript
