import EnumInline.FilePattern.Basic

/-!
Whether a pattern stands for a path. Each part of a pattern leaves some of the ends of a path to be
matched by the parts after it.
-/

namespace EnumInline.FilePattern

def slash : UInt8 := '/'.toNat.toUInt8

def bytesOf (c : Char) : List UInt8 := (String.singleton c).toUTF8.toList

def endsOf : List UInt8 → List (List UInt8)
  | [] => [[]]
  | b :: rest => (b :: rest) :: endsOf rest

def afterSlashes : List UInt8 → List (List UInt8)
  | [] => []
  | b :: rest => if b == slash then rest :: afterSlashes rest else afterSlashes rest

/-- The text and its ends, up to the end that starts with the first slash. -/
def afterRun : List UInt8 → List (List UInt8)
  | [] => [[]]
  | b :: rest => if b == slash then [b :: rest] else (b :: rest) :: afterRun rest

/-- Whether a byte is in a range of characters. A range of single characters holds the bytes of the
character; any other holds the bytes of its ends and those between its inner bytes. -/
def inRange (byte : UInt8) (range : Char × Char) : Bool :=
  let low := bytesOf range.1
  let high := bytesOf range.2
  if range.1 == range.2 then low.contains byte
  else
    low.contains byte || high.contains byte ||
      ((low.getLast?.any (· ≤ byte)) && (high.head?.any (byte ≤ ·)))

/-- Each end once. All of them are ends of one text, so their lengths tell them apart. -/
def withoutRepeats (ends : List (List UInt8)) : List (List UInt8) :=
  ends.foldr (fun text kept => if kept.any (·.length == text.length) then kept else text :: kept) []

mutual

def Part.isBlank : Part → Bool
  | .group branches => allBlank branches
  | _ => false

def isBlankBranch : List Part → Bool
  | [] => true
  | part :: rest => part.isBlank && isBlankBranch rest

/-- Whether no branch has text. -/
def allBlank : List (List Part) → Bool
  | [] => true
  | branch :: rest => isBlankBranch branch && allBlank rest

end

mutual

def Part.leaves : Part → List UInt8 → List (List UInt8)
  | .literal c, text => if (bytesOf c).isPrefixOf text then [text.drop (bytesOf c).length] else []
  | .one, text =>
      match text with
      | [] => []
      | b :: rest => if b == slash then [] else [rest]
  | .run, text => afterRun text
  | .outerDirectories, text => text :: afterSlashes text
  | .innerDirectories, text => if text.head? == some slash then afterSlashes text else []
  | .inside, text =>
      match text with
      | [] => []
      | b :: rest => if b == slash then endsOf rest else []
  | .oneOf negated ranges, text =>
      match text with
      | [] => []
      | b :: rest => if ranges.any (inRange b) != negated then [rest] else []
  | .group branches, text => if allBlank branches then [text] else anyLeaves branches text

def anyLeaves : List (List Part) → List UInt8 → List (List UInt8)
  | [], _ => []
  | branch :: rest, text =>
      (if isBlankBranch branch then [] else allLeave branch [text]) ++ anyLeaves rest text

/-- The ends that the parts of a branch leave one after the other. -/
def allLeave : List Part → List (List UInt8) → List (List UInt8)
  | [], ends => ends
  | part :: rest, ends => allLeave rest (withoutRepeats (ends.flatMap part.leaves))

end

/-- Whether a pattern stands for a path. Nothing but directories stands for every path. -/
def accepts (pattern : FilePattern) (path : String) : Bool :=
  match pattern.parts with
  | [.outerDirectories] => true
  | parts => (allLeave parts [path.toUTF8.toList]).any List.isEmpty

end EnumInline.FilePattern
