import EnumInline.Table.Basic
import EnumInline.Text.Pieces

/-!
Replacing member accesses in a source. An access `Enum.Member` counts only as a whole: neither part of a
longer name nor of a longer chain of members. A literal is put in brackets where it would not keep its
meaning without.
-/

namespace EnumInline.Substitution

open Text

def isSigned (text : List Char) : Bool := text.head?.any fun c => c == '-' || c == '+'

/-- Whether a digit comes first, apart from signs. -/
def leadsWithDigit (text : List Char) : Bool :=
  (text.dropWhile fun c => c == '-' || c == '+').head?.any isAsciiDigit

/-- Whether a literal must be put in brackets between `before`, which is reversed, and `after`: a point
after it would be taken for a fraction or for a member of the number without its sign, a power has no
signed base, and two signs would join. -/
def needsBrackets (before text after : List Char) : Bool :=
  (after.head? == some '.' && (leadsWithDigit text || isSigned text)) ||
    (isSigned text &&
      (['*', '*'].isPrefixOf (trimStart after) || isSigned (trimStart before)))

/-- Whether a text, given in reverse, ends in the point of a member access and not in that of a
spread. -/
def endsInPoint (before : List Char) : Bool :=
  before.head? == some '.' && !(['.', '.', '.'].isPrefixOf before)

/-- The member access that begins with `name`, if `rest` goes on with a point and a name: the access and
what follows it. -/
def access? (name rest : List Char) : Option (List Char × List Char) :=
  match rest with
  | '.' :: c :: tail =>
      if startsToken c then
        let member := (c :: tail).takeWhile continuesToken
        some (name ++ '.' :: member, (c :: tail).drop member.length)
      else none
  | _ => none

/-- The access at the start of a text whose first run of name characters is `name`, with the literal that
replaces it. `before` is what comes before, reversed. -/
def occurrence? (entries : Entries) (before name rest : List Char) :
    Option (List Char × String × List Char) :=
  if name.head?.any startsToken && !endsInPoint before then
    (access? name rest).bind fun (access, after) =>
      entries[String.ofList access]?.map fun text => (access, text, after)
  else none

/-- A literal, in brackets where it needs them. -/
def inserted (before text after : List Char) : List Char :=
  if needsBrackets before text after then '(' :: text ++ [')'] else text

/-- Replaces the accesses in a text, run by run. `before` is what comes before it, reversed; `fuel` bounds
the number of runs. -/
def go (entries : Entries) : (fuel : Nat) → (before text : List Char) → List Char
  | 0, _, text => text
  | fuel + 1, before, text =>
      let between := text.takeWhile fun c => !continuesToken c
      let text := text.drop between.length
      let before := between.reverse ++ before
      let name := text.takeWhile continuesToken
      if name.isEmpty then between
      else
        let rest := text.drop name.length
        match occurrence? entries before name rest with
        | some (access, literal, after) =>
            between ++ inserted before literal.toList after ++
              go entries fuel (access.reverse ++ before) after
        | none => between ++ name ++ go entries fuel (name.reverse ++ before) rest

/-- A text with every access replaced that has an entry. -/
def replaceChars (entries : Entries) (code : List Char) : List Char :=
  go entries (code.length + 1) [] code

def replace (entries : Entries) : String → String := onChars (replaceChars entries)

end EnumInline.Substitution
