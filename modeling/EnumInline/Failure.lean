import EnumInline.Text.Location

/-!
Why an analysis stops. Each failure names its cause; the wording of the causes is here and nowhere else.
References that lead nowhere are no failures: they stay in the source as they are.
-/

namespace EnumInline

/-- What reading or writing a file can run into. -/
inductive IoCause where
  | notFound
  | notADirectory
  | isADirectory
  | tooManyLinks
  | notText
  | badName
  | tooLarge (size limit : Nat)
  | described (text : String)
  deriving DecidableEq, Repr

def IoCause.message : IoCause → String
  | .notFound => "No such file or directory (os error 2)"
  | .notADirectory => "Not a directory (os error 20)"
  | .isADirectory => "Is a directory (os error 21)"
  | .tooManyLinks => "Too many levels of symbolic links (os error 40)"
  | .notText => "stream did not contain valid UTF-8"
  | .badName => "file name contained an unexpected NUL byte"
  | .tooLarge size limit =>
      "file too large (" ++ toString size ++ " bytes, max " ++ toString limit ++ ")"
  | .described text => text

/-- Why a file pattern is none. -/
inductive PatternCause where
  | unclosedGroup
  | unopenedGroup
  | unclosedClass
  | invalidRange (first last : Char)
  | danglingEscape
  deriving DecidableEq, Repr

def PatternCause.message : PatternCause → String
  | .unclosedGroup =>
      "unclosed alternate group; missing '\x7d' (maybe escape '\x7b' with '[\x7b]'?)"
  | .unopenedGroup =>
      "unopened alternate group; missing '\x7b' (maybe escape '\x7d' with '[\x7d]'?)"
  | .unclosedClass => "unclosed character class; missing ']'"
  | .invalidRange first last =>
      "invalid range; '" ++ String.singleton first ++ "' > '" ++ String.singleton last ++ "'"
  | .danglingEscape => "dangling '\\'"

inductive ConfigCause where
  | tsconfigNotFound
  | extendsCycle
  | severalStars (pattern : String)
  | badPattern (pattern : String) (cause : PatternCause)
  | malformedSettings
  | malformedTsconfig
  | described (text : String)
  deriving DecidableEq, Repr

def ConfigCause.message : ConfigCause → String
  | .tsconfigNotFound => "tsconfig not found"
  | .extendsCycle => "tsconfig extends cycle detected"
  | .severalStars pattern => "paths pattern '" ++ pattern ++ "' has more than one '*'"
  | .badPattern pattern cause =>
      "invalid file pattern '" ++ pattern ++ "': error parsing glob '" ++ pattern ++ "': " ++
        cause.message
  | .malformedSettings => "Invalid constinline.toml"
  | .malformedTsconfig => "Invalid tsconfig"
  | .described text => text

/-- Why a member has no value that can be inlined. -/
inductive MemberCause where
  /-- The initializer is no constant; `form` says what it is. -/
  | unsupported (form : String)
  | notAMember (name enum : String)
  | unknownQualifier (qualifier : String)
  | noSuchMember (qualifier member : String)
  | followsNonNumeric (text : String)
  | described (text : String)
  deriving DecidableEq, Repr

private def quoted (text : String) : String := "\x60" ++ text ++ "\x60"

def MemberCause.message : MemberCause → String
  | .unsupported form => "initializer is a " ++ form
  | .notAMember name enum => quoted name ++ " is not a member of " ++ quoted enum
  | .unknownQualifier qualifier =>
      quoted qualifier ++ " is neither a const enum nor an imported binding"
  | .noSuchMember qualifier member => quoted qualifier ++ " has no member " ++ quoted member
  | .followsNonNumeric text => "implicit value follows non-numeric value " ++ text
  | .described text => text

structure MemberFailure where
  module : String
  enum : String
  member : String
  cause : MemberCause
  deriving DecidableEq, Repr

def MemberFailure.message (failure : MemberFailure) : String :=
  "Unsupported member " ++ failure.enum ++ "." ++ failure.member ++ " in " ++ failure.module ++ ": " ++
    failure.cause.message

inductive Failure where
  | io (path : String) (cause : IoCause)
  /-- The source breaks the rules of its language, at `location` if that is known. -/
  | parse (path : String) (detail : String) (location : Option Text.Location)
  | config (path : String) (cause : ConfigCause)
  | unsupportedMember (failure : MemberFailure)
  | invalidArgument (text : String)
  | internal (text : String)
  deriving DecidableEq, Repr

namespace Failure

def message : Failure → String
  | .io path cause => "I/O error at " ++ path ++ ": " ++ cause.message
  | .parse path detail _ => "Parse error in " ++ path ++ ": " ++ detail
  | .config path cause => "Config error at " ++ path ++ ": " ++ cause.message
  | .unsupportedMember failure => failure.message
  | .invalidArgument text => "Invalid argument: " ++ text
  | .internal text => "Internal error: " ++ text

/-- The file that the failure is about, if it is about one. -/
def path? : Failure → Option String
  | .io path _ | .parse path _ _ | .config path _ => some path
  | _ => none

end Failure

end EnumInline
