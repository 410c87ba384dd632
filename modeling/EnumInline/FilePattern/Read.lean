import EnumInline.Failure
import EnumInline.FilePattern.Basic

/-!
Reading file patterns. Two stars stand for directories only where they are a whole segment of a path;
elsewhere they are two single stars.
-/

namespace EnumInline.FilePattern

/-- A group that is not closed yet: what comes before it, the last part first, and its branches so far,
the last one first. -/
structure OpenGroup where
  outer : List Part
  branches : List (List Part)

structure Reading where
  /-- The parts of the current branch, the last one first. -/
  current : List Part
  /-- The groups around it, the innermost first. -/
  groups : List OpenGroup

namespace Reading

def empty : Reading := ⟨[], []⟩

def push (reading : Reading) (part : Part) : Reading :=
  { reading with current := part :: reading.current }

def inGroup (reading : Reading) : Bool := !reading.groups.isEmpty

def openGroup (reading : Reading) : Reading := ⟨[], ⟨reading.current, []⟩ :: reading.groups⟩

/-- A comma starts the next branch of a group; outside of groups it stands for itself. -/
def comma (reading : Reading) : Reading :=
  match reading.groups with
  | [] => reading.push (.literal ',')
  | group :: outer =>
      ⟨[], { group with branches := reading.current.reverse :: group.branches } :: outer⟩

def closeGroup (reading : Reading) : Except PatternCause Reading :=
  match reading.groups with
  | [] => .error .unopenedGroup
  | group :: outer =>
      let branches := (reading.current.reverse :: group.branches).reverse
      .ok ⟨.group branches :: group.outer, outer⟩

/-- Takes in two stars between the characters `before` and `after`. Tells whether a slash after them
belongs to them. -/
def doubleStar (reading : Reading) (before after : Option Char) : Reading × Bool :=
  let twoRuns := (reading.push .run).push .run
  match reading.current with
  | [] =>
      if after.isNone then (reading.push .outerDirectories, false)
      else if after == some '/' then (reading.push .outerDirectories, true)
      else (twoRuns, false)
  | last :: earlier =>
      let starts := before == some '/' ||
        (reading.inGroup && (before == some ',' || before == some '\x7b'))
      let ends := after.isNone || (reading.inGroup && (after == some ',' || after == some '\x7d'))
      if !starts || !(ends || after == some '/') then (twoRuns, false)
      else
        let joined := match last with
          | .outerDirectories => .outerDirectories
          | .inside => .inside
          | _ => if ends then .inside else .innerDirectories
        ({ reading with current := joined :: earlier }, !ends)

end Reading

/-- The ranges of a class, the last one first, while its text is read. -/
structure ClassReading where
  ranges : List (Char × Char)
  /-- Whether a hyphen waits for the end of its range. -/
  inRange : Bool

def ClassReading.take (reading : ClassReading) (c : Char) : Except PatternCause ClassReading :=
  match reading.ranges with
  | (low, high) :: earlier =>
      if reading.inRange then
        if c < low then .error (.invalidRange low c) else .ok ⟨(low, c) :: earlier, false⟩
      else if c == '-' then .ok ⟨(low, high) :: earlier, true⟩
      else .ok ⟨(c, c) :: (low, high) :: earlier, false⟩
  | [] => .ok ⟨[(c, c)], false⟩

/-- The ranges of a class. A hyphen without an end stands for itself. -/
def ClassReading.finish (reading : ClassReading) : List (Char × Char) :=
  (if reading.inRange then ('-', '-') :: reading.ranges else reading.ranges).reverse

/-- Reads the rest of a class up to its closing bracket; a bracket that comes first does not close. -/
def readRanges (reading : ClassReading) :
    List Char → Except PatternCause (List (Char × Char) × List Char)
  | [] => .error .unclosedClass
  | c :: rest =>
      if c == ']' && !reading.ranges.isEmpty then .ok (reading.finish, rest)
      else
        match reading.take c with
        | .error cause => .error cause
        | .ok reading => readRanges reading rest

def readClass (text : List Char) : Except PatternCause (Part × List Char) :=
  let negated := text.head?.any fun c => c == '!' || c == '^'
  (readRanges ⟨[], false⟩ (if negated then text.drop 1 else text)).map fun (ranges, rest) =>
    (.oneOf negated ranges, rest)

/-- Reads the rest of a pattern; `before` is the character before it, and `fuel` bounds its length. -/
def readFrom : (fuel : Nat) → (before : Option Char) → List Char → Reading →
    Except PatternCause Reading
  | 0, _, _, reading | _, _, [], reading => .ok reading
  | fuel + 1, before, c :: rest, reading =>
      match c with
      | '?' => readFrom fuel (some c) rest (reading.push .one)
      | '*' =>
          match rest with
          | '*' :: rest =>
              let (reading, joinsSlash) := reading.doubleStar before rest.head?
              if joinsSlash then readFrom fuel (some '/') (rest.drop 1) reading
              else readFrom fuel (some '*') rest reading
          | _ => readFrom fuel (some c) rest (reading.push .run)
      | '[' =>
          match readClass rest with
          | .error cause => .error cause
          | .ok (part, rest) => readFrom fuel (some ']') rest (reading.push part)
      | '\x7b' => readFrom fuel (some c) rest reading.openGroup
      | '\x7d' =>
          match reading.closeGroup with
          | .error cause => .error cause
          | .ok reading => readFrom fuel (some c) rest reading
      | ',' => readFrom fuel (some c) rest reading.comma
      | '\\' =>
          match rest with
          | [] => .error .danglingEscape
          | escaped :: rest => readFrom fuel (some escaped) rest (reading.push (.literal escaped))
      | c => readFrom fuel (some c) rest (reading.push (.literal c))

def read (text : String) : Except PatternCause FilePattern :=
  match readFrom text.toList.length none text.toList .empty with
  | .error cause => .error cause
  | .ok reading => if reading.inGroup then .error .unclosedGroup else .ok ⟨reading.current.reverse⟩

end EnumInline.FilePattern
