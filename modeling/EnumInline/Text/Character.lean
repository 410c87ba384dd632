import EnumInline.Text.Alphabetic
import EnumInline.Text.NameContinue
import EnumInline.Text.NameStart
import EnumInline.Text.Numeric
import EnumInline.Text.WordRange

/-!
The classes of characters that rules about names, blanks and words refer to. Two notions of a name
live side by side: names in source text are delimited by `ID_Start` and `ID_Continue`, names that are
put in place of each other are delimited by letters and numbers.
-/

namespace EnumInline.Text

def isAsciiDigit (c : Char) : Bool := '0' ≤ c && c ≤ '9'

def isAsciiLetter (c : Char) : Bool := ('a' ≤ c && c ≤ 'z') || ('A' ≤ c && c ≤ 'Z')

/-- A letter of any script. -/
def isAlphabetic (c : Char) : Bool := CodeRange.covers c.toNat alphabeticRanges

/-- A digit or other number of any script. -/
def isNumeric (c : Char) : Bool := CodeRange.covers c.toNat numericRanges

def isAlphanumeric (c : Char) : Bool := isAlphabetic c || isNumeric c

/-- White space of any script, line ends included. -/
def isBlank (c : Char) : Bool :=
  (0x9 ≤ c.toNat && c.toNat ≤ 0xd) || c.toNat == 0x20 || c.toNat == 0x85 || c.toNat == 0xa0 ||
    c.toNat == 0x1680 || (0x2000 ≤ c.toNat && c.toNat ≤ 0x200a) || c.toNat == 0x2028 ||
    c.toNat == 0x2029 || c.toNat == 0x202f || c.toNat == 0x205f || c.toNat == 0x3000

/-- A character between two of which there is no word boundary. -/
def isWord (c : Char) : Bool := CodeRange.covers c.toNat wordRanges

def startsName (c : Char) : Bool :=
  isAsciiLetter c || c == '$' || c == '_' ||
    (0x80 ≤ c.toNat && CodeRange.covers c.toNat nameStartRanges)

/-- A character that may continue a name in source text; the two joiners are among them. -/
def continuesName (c : Char) : Bool :=
  isAsciiLetter c || isAsciiDigit c || c == '$' || c == '_' || c.toNat == 0x200c ||
    c.toNat == 0x200d || (0x80 ≤ c.toNat && CodeRange.covers c.toNat nameContinueRanges)

def startsToken (c : Char) : Bool := isAlphabetic c || c == '_' || c == '$'

/-- A character that belongs to a run in which a replaceable name is looked for. -/
def continuesToken (c : Char) : Bool := isAlphanumeric c || c == '_' || c == '$'

end EnumInline.Text
