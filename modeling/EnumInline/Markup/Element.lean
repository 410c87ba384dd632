import EnumInline.Markup.Matching

/-!
Script elements in markup. An element runs from its opening tag to the first closing tag after it; a
bracket in an attribute closes the opening tag like any other.
-/

namespace EnumInline.Markup

open Text

/-- A script element: the text of its opening tag after the word `script`, its body, and the text of its
closing tag after the word `script`. -/
structure Element where
  /-- The first seven characters, which spell the start of the opening tag. -/
  opening : List Char
  attributes : List Char
  body : List Char
  /-- The closing tag. -/
  closing : List Char
  deriving DecidableEq, Repr

namespace Element

def text (element : Element) : List Char :=
  element.opening ++ element.attributes ++ '>' :: element.body ++ element.closing

/-- The closing tag at the start of a text, if there is one, and what follows it. -/
def closing? (text : List Char) : Option (List Char × List Char) :=
  (dropWord? "</script".toList text).bind fun rest =>
    let blanks := rest.takeWhile isBlank
    match rest.drop blanks.length with
    | '>' :: after => some (text.take 8 ++ blanks ++ ['>'], after)
    | _ => none

/-- The text before the first closing tag, the tag, and the text after it. Closing tags start with a
bracket, so the search goes from bracket to bracket; `fuel` bounds their number. -/
def cutAtClosing? : (fuel : Nat) → List Char → Option (List Char × List Char × List Char)
  | 0, _ => none
  | fuel + 1, text =>
      let before := text.takeWhile (· != '<')
      match text.drop before.length with
      | [] => none
      | c :: rest =>
          match closing? (c :: rest) with
          | some (closing, after) => some (before, closing, after)
          | none =>
              (cutAtClosing? fuel rest).map fun (body, closing, after) =>
                (before ++ c :: body, closing, after)

def read? (text : List Char) : Option (Element × List Char) :=
  (dropWord? "<script".toList text).bind fun rest =>
    if rest.head?.any isWord then none
    else
      let attributes := rest.takeWhile (· != '>')
      match rest.drop attributes.length with
      | [] => none
      | _ :: inner =>
          (cutAtClosing? (inner.length + 1) inner).map fun (body, closing, after) =>
            (⟨text.take 7, attributes, body, closing⟩, after)

/-- The language mark at the start of a text: `ts`, then perhaps `x`. -/
def languageAfterEquals? (text : List Char) : Option (List Char) :=
  let text := trimStart text
  let text := match text with
    | '"' :: rest | '\'' :: rest => rest
    | _ => text
  (dropWord? "ts".toList text).map fun rest =>
    match rest with
    | x :: _ => if isLetter 'x' x then text.take 3 else text.take 2
    | [] => text.take 2

def languageHere? (text : List Char) : Option (List Char) :=
  (dropWord? "lang".toList text).bind fun rest =>
    match trimStart rest with
    | '=' :: rest => languageAfterEquals? rest
    | _ => none

/-- The language that attributes name, if it is TypeScript: the first word `lang` that is given a value
which starts like its name. `afterWord` tells whether a word character comes before the text. -/
def language? : (afterWord : Bool) → List Char → Option (List Char)
  | _, [] => none
  | afterWord, c :: rest =>
      ((if afterWord then none else languageHere? (c :: rest))).or (language? (isWord c) rest)

/-- Whether the element holds TypeScript, and if so, whether elements are expressions in it. -/
def script? (element : Element) : Option Bool :=
  (language? false element.attributes).map fun language =>
    language.map Char.toLower == "tsx".toList

end Element

end EnumInline.Markup
