/-!
The commands of the program, and how they are written as arguments.
-/

namespace EnumInline.CommandLine

/-- Settings given with a command, which win over those of the settings file. -/
structure Overrides where
  pattern : Option String
  tsconfig : Option String
  noInlineLocal : Bool
  deriving DecidableEq, Repr

inductive Command where
  /-- Prints the table of a project, or writes it to the file `out`. -/
  | table (root : String) (overrides : Overrides) (json : Bool) (out : Option String)
  /-- Prints files with their enum members inlined, or writes them back if `write` holds. -/
  | transform (files : List String) (root : String) (overrides : Overrides) (write : Bool)
  /-- Prints the digest of the table of a project. -/
  | digest (root : String) (overrides : Overrides)
  deriving DecidableEq, Repr

/-- What the help is about. -/
inductive Topic where
  | program
  | table
  | transform
  | digest
  | help
  deriving DecidableEq, Repr

/-- What arguments ask for. -/
inductive Request where
  | run (command : Command)
  | help (topic : Topic)
  | version
  /-- The arguments are not well-formed. -/
  | misuse
  deriving DecidableEq, Repr

/-- An option of a command. -/
inductive Flag where
  | pattern
  | tsconfig
  | noInlineLocal
  | json
  | out
  | root
  | write
  deriving DecidableEq, Repr

namespace Flag

/-- The name of an option, without the hyphens before it. -/
def name : Flag → String
  | .pattern => "pattern"
  | .tsconfig => "tsconfig"
  | .noInlineLocal => "no-inline-local"
  | .json => "json"
  | .out => "out"
  | .root => "root"
  | .write => "write"

def takesValue : Flag → Bool
  | .pattern | .tsconfig | .out | .root => true
  | .noInlineLocal | .json | .write => false

/-- Whether the value of the option must not be empty. -/
def needsText : Flag → Bool
  | .tsconfig => true
  | _ => false

end Flag

def Topic.flags : Topic → List Flag
  | .program | .help => []
  | .table => [.pattern, .tsconfig, .noInlineLocal, .json, .out]
  | .transform => [.root, .pattern, .tsconfig, .noInlineLocal, .write]
  | .digest => [.pattern, .tsconfig, .noInlineLocal]

def Topic.ofWord? : String → Option Topic
  | "table" => some .table
  | "transform" => some .transform
  | "digest" => some .digest
  | "help" => some .help
  | _ => none

end EnumInline.CommandLine
