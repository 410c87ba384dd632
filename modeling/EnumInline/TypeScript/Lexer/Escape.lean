import EnumInline.Double.Reading
import EnumInline.TypeScript.Lexer.Trivia

/-!
Escape sequences in names, strings and templates.
-/

namespace EnumInline.TypeScript

/-- What an escape sequence stands for, and how many characters after the backslash it takes. -/
structure Escape where
  text : List Char
  length : Nat
  faults : List Nat := []

namespace Escape

def hexRun (limit : Nat) (text : List Char) : List Char :=
  (text.take limit).takeWhile fun c => (Double.digitValue? 16 c).isSome

def valueOf (digits : List Char) : Nat :=
  digits.foldl (fun total c => total * 16 + (Double.digitValue? 16 c).getD 0) 0

/-- The character with the given code. A code that belongs to half of a pair is no character and keeps
its spelling. -/
def decoded (code : Nat) (spelling : List Char) : List Char :=
  if 0xd800 ≤ code ∧ code ≤ 0xdfff then '\\' :: spelling else [Char.ofNat code]

/-- Reads an escape by code, `text` being what follows the backslash, which stands before `offset`.
Fails where a digit is missing. -/
def unicode (offset : Nat) (text : List Char) : Except Nat Escape :=
  match text with
  | 'u' :: '{' :: rest =>
      let digits := hexRun rest.length rest
      let stop := offset + 2 + digits.length
      if digits.isEmpty || 0x10ffff < valueOf digits then .error stop
      else if rest.drop digits.length |>.head? |> (· == some '}') then
        let length := digits.length + 3
        .ok { text := decoded (valueOf digits) (text.take length), length }
      else .error (offset + 2)
  | 'u' :: rest =>
      let digits := hexRun 4 rest
      if digits.length = 4 then
        .ok { text := decoded (valueOf digits) (text.take 5), length := 5 }
      else .error (offset + 1 + digits.length)
  | _ => .error offset

def single (c : Char) : Option Char :=
  match c with
  | 'n' => some '\n'
  | 't' => some '\t'
  | 'r' => some '\r'
  | 'b' => some '\x08'
  | 'v' => some '\x0b'
  | 'f' => some '\x0c'
  | _ => none

def isOctal (c : Char) : Bool := '0' ≤ c && c ≤ '7'

/-- Reads an escape in a string or template, `text` being what follows the backslash at `start`. A
backslash before a line end joins two lines. Octal escapes are a fault in strings and an error in
templates. -/
def read (inTemplate : Bool) (start : Nat) (text : List Char) : Except Nat Escape :=
  match text with
  | [] => .ok { text := [], length := 0 }
  | '\r' :: '\n' :: _ => .ok { text := [], length := 2 }
  | 'u' :: _ => unicode (start + 1) text
  | 'x' :: rest =>
      let digits := hexRun 2 rest
      if digits.length = 2 then .ok { text := [Char.ofNat (valueOf digits)], length := 3 }
      else .error start
  | c :: rest =>
      if isLineEnd c then .ok { text := [], length := 1 }
      else if c == '0' && !(rest.head?.any isOctal) then .ok { text := ['\x00'], length := 1 }
      else if isOctal c then
        if inTemplate then .error start
        else .ok { text := [c], length := 1, faults := [start] }
      else .ok { text := [(single c).getD c], length := 1 }

end Escape

end EnumInline.TypeScript
