/-!
Strings as JSON writes them: in double quotes, with quotes, backslashes and control characters escaped
and every other character as it is.
-/

namespace EnumInline.Json

/-- The digit of a value below sixteen, in lower case. -/
def hexDigit (value : Nat) : Char := (Nat.digitChar value)

/-- The characters that stand for one character between the quotes. -/
def escape (c : Char) : List Char :=
  match c with
  | '"' => ['\\', '"']
  | '\\' => ['\\', '\\']
  | '\x08' => ['\\', 'b']
  | '\x0c' => ['\\', 'f']
  | '\n' => ['\\', 'n']
  | '\r' => ['\\', 'r']
  | '\t' => ['\\', 't']
  | c =>
      if c.toNat < 0x20 then ['\\', 'u', '0', '0', hexDigit (c.toNat / 16), hexDigit (c.toNat % 16)]
      else [c]

/-- The JSON text of a string. -/
def quote (text : List Char) : List Char := '"' :: text.flatMap escape ++ ['"']

end EnumInline.Json
