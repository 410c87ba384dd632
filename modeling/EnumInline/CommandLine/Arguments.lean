import EnumInline.CommandLine.Command
import EnumInline.Text.Pieces

/-!
Reading the arguments of the program. They are taken one by one, and the first that is wrong or asks for
help decides.
-/

namespace EnumInline.CommandLine

open Text

/-- What is taken in so far of the arguments of a command. -/
structure Given where
  /-- The options with their values; the value of an option that takes none is empty. -/
  flags : List (Flag × String)
  /-- The other arguments, the last one first. -/
  words : List String

/-- Why the arguments are not read to their end. -/
inductive Halt where
  | help
  | misuse

namespace Given

def empty : Given := ⟨[], []⟩

def has (given : Given) (flag : Flag) : Bool := given.flags.any (·.1 == flag)

def value? (given : Given) (flag : Flag) : Option String := given.flags.lookup flag

/-- Takes an option in. No option is given twice. -/
def set (given : Given) (flag : Flag) (value : String) : Except Halt Given :=
  if given.has flag || (flag.needsText && value.isEmpty) then .error .misuse
  else .ok { given with flags := (flag, value) :: given.flags }

/-- Takes a word in. Only a transformation takes more than one, and its files have names. -/
def push (topic : Topic) (given : Given) (word : String) : Except Halt Given :=
  let accepted := match topic with
    | .transform => !word.isEmpty
    | _ => given.words.isEmpty
  if accepted then .ok { given with words := word :: given.words } else .error .misuse

end Given

def looksLikeFlag (argument : String) : Bool :=
  argument.toList.head? == some '-' && argument != "-"

def flag? (topic : Topic) (name : String) : Option Flag := topic.flags.find? (·.name == name)

/-- Takes in an option written with a value behind an equals sign, or alone. A value that is not behind the
sign is the argument after the option. -/
private def takeFlag (topic : Topic) (given : Given) (name : String) (value : Option String)
    (rest : List String) : Except Halt (Given × List String) :=
  match flag? topic name, value with
  | none, none => .error (if name == "help" then .help else .misuse)
  | none, some _ => .error .misuse
  | some flag, some value =>
      if flag.takesValue then (given.set flag value).map fun given => (given, rest)
      else .error .misuse
  | some flag, none =>
      if !flag.takesValue then (given.set flag "").map fun given => (given, rest)
      else
        match rest with
        | [] => .error .misuse
        | value :: rest =>
            if looksLikeFlag value then .error .misuse
            else (given.set flag value).map fun given => (given, rest)

/-- The name of an option and the value behind its equals sign. -/
private def cutFlag (text : List Char) : String × Option String :=
  match cutAt? '=' text with
  | none => (String.ofList text, none)
  | some (name, value) => (String.ofList name, some (String.ofList value))

/-- Takes in the arguments of a command; `fuel` bounds their number. After two hyphens, no argument is an
option. -/
def take (topic : Topic) : (fuel : Nat) → Given → List String → Except Halt Given
  | 0, given, _ | _, given, [] => .ok given
  | fuel + 1, given, argument :: rest =>
      match argument.toList with
      | ['-', '-'] => rest.foldlM (Given.push topic) given
      | '-' :: '-' :: text =>
          let (name, value) := cutFlag text
          match takeFlag topic given name value rest with
          | .error halt => .error halt
          | .ok (given, rest) => take topic fuel given rest
      | '-' :: 'h' :: _ => .error .help
      | '-' :: _ :: _ => .error .misuse
      | _ =>
          match given.push topic argument with
          | .error halt => .error halt
          | .ok given => take topic fuel given rest

private def overrides (given : Given) : Overrides :=
  ⟨given.value? .pattern, given.value? .tsconfig, given.has .noInlineLocal⟩

/-- The command that is given. The root of a project is the current directory unless another is named. -/
private def command? (topic : Topic) (given : Given) : Option Command :=
  let words := given.words.reverse
  match topic with
  | .program | .help => none
  | .table =>
      some (.table (words.headD ".") (overrides given) (given.has .json) (given.value? .out))
  | .transform =>
      if words.isEmpty then none
      else
        some (.transform words ((given.value? .root).getD ".") (overrides given) (given.has .write))
  | .digest => some (.digest (words.headD ".") (overrides given))

private def readCommand (topic : Topic) (arguments : List String) : Request :=
  match take topic arguments.length .empty arguments with
  | .error .help => .help topic
  | .error .misuse => .misuse
  | .ok given =>
      match command? topic given with
      | some command => .run command
      | none => .misuse

/-- Reads the words after `help`, which name a command. -/
private def readHelp : List String → Request
  | [] => .help .program
  | [word] =>
      match Topic.ofWord? word with
      | some topic => .help topic
      | none => .misuse
  | _ => .misuse

def read : List String → Request
  | [] => .misuse
  | first :: rest =>
      if first == "--help" || "-h".toList.isPrefixOf first.toList then .help .program
      else if first == "--version" || "-V".toList.isPrefixOf first.toList then .version
      else
        match Topic.ofWord? first with
        | none => .misuse
        | some .help => readHelp rest
        | some topic => readCommand topic rest

end EnumInline.CommandLine
