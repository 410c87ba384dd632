import EnumInline.TypeScript.Lexer.Name
import EnumInline.TypeScript.Lexer.Numeral
import EnumInline.TypeScript.Lexer.Quoted
import EnumInline.TypeScript.Lexer.RegularExpression
import EnumInline.TypeScript.ReservedWord

/-!
Reading one token. The longest operator wins, apart from closing angle brackets, which are always read
one by one. A reserved word must not be spelled with escapes.
-/

namespace EnumInline.TypeScript

open Text

namespace Token

/-- The operators and punctuation that start with a given character, the longest first. -/
def marks : Char → List String
  | '.' => ["...", "."]
  | '?' => ["??=", "??", "?.", "?"]
  | '=' => ["===", "==", "=>", "="]
  | '!' => ["!==", "!=", "!"]
  | '+' => ["++", "+=", "+"]
  | '-' => ["--", "-=", "-"]
  | '*' => ["**=", "**", "*=", "*"]
  | '/' => ["/=", "/"]
  | '%' => ["%=", "%"]
  | '<' => ["<<=", "<<", "<=", "<"]
  | '&' => ["&&=", "&&", "&=", "&"]
  | '|' => ["||=", "||", "|=", "|"]
  | '^' => ["^=", "^"]
  | c => if "\x7b\x7d()[];,:~@#>\x60".toList.contains c then [String.singleton c] else []

/-- A question mark before a point and a digit is a mark of its own. -/
def fits (text : List Char) (mark : String) : Bool :=
  mark.toList.isPrefixOf text &&
    !(mark == "?." && (text.drop 2).head?.any isAsciiDigit)

def readMark? (here : Cursor) : Option (Token × Cursor) :=
  match here.rest with
  | [] => none
  | c :: _ =>
      ((marks c).find? (fits here.rest)).map fun text => (.mark text, here.skip text.length)

def ofPiece (here : Cursor) : Except Nat (Piece Token) → Piece Token
  | .ok piece => piece
  | .error fault => ⟨.invalid fault, here, []⟩

/-- Reads the token that starts here, with nothing to skip before it. -/
def readHere (here : Cursor) : Piece Token :=
  match here.rest with
  | [] => ⟨.endOfSource, here, []⟩
  | c :: rest =>
      if startsName c || c == '\\' then
        ofPiece here do
          let (found, next) ← Name.read here
          let text := String.ofList found.text
          if found.escaped && isReserved text then throw here.offset
          return ⟨.name text, next, []⟩
      else if isAsciiDigit c || (c == '.' && rest.head?.any isAsciiDigit) then
        ofPiece here (Numeral.read here)
      else if c == '"' || c == '\'' then
        ofPiece here do
          let text ← Quoted.read here
          return ⟨.string (String.ofList text.value), text.next, text.faults⟩
      else
        match readMark? here with
        | some (token, next) => ⟨token, next, []⟩
        | none => ⟨.invalid here.offset, here, []⟩

theorem isSpelled_of_readMark? {here next : Cursor} {token : Token}
    (h : readMark? here = some (token, next)) : token.IsSpelled := by
  unfold readMark? at h
  split at h
  · cases h
  · obtain ⟨text, -, heq⟩ := Option.map_eq_some_iff.1 h
    cases heq
    trivial

theorem isSpelled_ofPiece {here : Cursor} {result : Except Nat (Piece Token)}
    (h : ∀ found, result = .ok found → found.value.IsSpelled) :
    (ofPiece here result).value.IsSpelled := by
  cases result with
  | ok found => exact h found rfl
  | error fault => trivial

theorem isSpelled_readHere (here : Cursor) : (readHere here).value.IsSpelled := by
  unfold readHere
  split
  next => trivial
  next c rest hhere =>
    split
    next hname =>
      apply isSpelled_ofPiece
      intro piece h
      simp only [bind, Except.bind] at h
      split at h
      · cases h
      next found hread =>
        split at h
        · cases h
        · cases h
          have hc : startsName c = true ∨ c = '\\' := by simpa using hname
          have hspelled := Name.isSourceName_of_read hread hhere hc
          rwa [← String.toList_ofList (l := found.1.text)] at hspelled
    next =>
      split
      next => exact isSpelled_ofPiece fun _ h => Numeral.isSpelled_of_read h
      next =>
        split
        next =>
          apply isSpelled_ofPiece
          intro piece h
          simp only [bind, Except.bind] at h
          split at h
          · cases h
          · cases h
            trivial
        next =>
          split
          next hmark => exact isSpelled_of_readMark? hmark
          next => trivial

end Token

/-- Reads the next token after blanks and comments. -/
def Cursor.nextLexeme (here : Cursor) : Lexeme :=
  let skipped := here.skipTrivia
  let piece := Token.readHere skipped.next
  ⟨piece.value, Token.isSpelled_readHere _, skipped.next, piece.next, skipped.afterNewline,
    skipped.faults ++ piece.faults⟩

end EnumInline.TypeScript
