import EnumInline.Text.Character

/-!
Cutting text: at separators, at its ends, and around a part that is looked for.
-/

namespace EnumInline.Text

/-- The pieces between separators; there is one more piece than there are separators. -/
def splitWhere (separates : Char → Bool) : List Char → List (List Char)
  | [] => [[]]
  | c :: rest =>
      if separates c then [] :: splitWhere separates rest
      else
        match splitWhere separates rest with
        | [] => [[c]]
        | piece :: pieces => (c :: piece) :: pieces

/-- The text before and after the first occurrence of a character. -/
def cutAt? (mark : Char) : List Char → Option (List Char × List Char)
  | [] => none
  | c :: rest =>
      if c = mark then some ([], rest)
      else (cutAt? mark rest).map fun (before, after) => (c :: before, after)

def trimStart (text : List Char) : List Char := text.dropWhile isBlank

/-- The text without white space at its end. -/
def trimEnd (text : List Char) : List Char := (text.reverse.dropWhile isBlank).reverse

def trim (text : List Char) : List Char := trimEnd (trimStart text)

def dropStart? (start text : List Char) : Option (List Char) :=
  if start.isPrefixOf text then some (text.drop start.length) else none

/-- What precedes `ending`, if the text ends with it. -/
def dropEnd? (ending text : List Char) : Option (List Char) :=
  if ending.isSuffixOf text then some (text.take (text.length - ending.length)) else none

/-- Applies a function on characters to a string. -/
def onChars (f : List Char → List Char) (text : String) : String := String.ofList (f text.toList)

end EnumInline.Text
