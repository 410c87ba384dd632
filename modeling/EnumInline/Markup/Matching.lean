import EnumInline.Text.Pieces

/-!
Finding words in markup without regard to the case of letters.
-/

namespace EnumInline.Markup

open Text

/-- Whether a character is a spelling of an ASCII letter given in lower case. Two letters beyond ASCII
are: the long `s` and the sign for kelvin. -/
def isLetter (letter c : Char) : Bool :=
  c == letter || c == letter.toUpper || (letter == 's' && c.toNat == 0x17f) ||
    (letter == 'k' && c.toNat == 0x212a)

/-- What follows a word given in lower case, if the text begins with it in any case. -/
def dropWord? : (word text : List Char) → Option (List Char)
  | [], text => some text
  | _ :: _, [] => none
  | letter :: word, c :: rest => if isLetter letter c then dropWord? word rest else none

end EnumInline.Markup
