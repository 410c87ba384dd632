import EnumInline.Failure

/-!
Telling why a command failed: what was attempted, and below it the causes, each the cause of the one above
it. Several causes are numbered.
-/

namespace EnumInline.CommandLine

/-- A failed attempt and its causes. -/
structure Report where
  attempt : String
  causes : List String
  /-- The file that stood in the way, if one did. -/
  path? : Option String

namespace Report

/-- A text with blanks before all its lines but the first. -/
private def indentLines (blanks text : String) : String :=
  String.ofList <| text.toList.flatMap fun c => if c = '\n' then '\n' :: blanks.toList else [c]

private def numbered (number : Nat) (cause : String) : String :=
  let digits := toString number
  String.ofList (List.replicate (5 - digits.length) ' ') ++ digits ++ ": " ++
    indentLines "       " cause ++ "\n"

def text (report : Report) : String :=
  "Error: " ++ report.attempt ++ "\n" ++
    match report.causes with
    | [] => ""
    | [cause] => "\nCaused by:\n    " ++ indentLines "    " cause ++ "\n"
    | causes =>
        "\nCaused by:\n" ++
          String.join (causes.zipIdx.map fun (cause, number) => numbered number cause)

/-- What failed in reading or writing files is a cause of its own, apart from limits set here. -/
def causesOf (failure : Failure) : List String :=
  match failure with
  | .io _ (.tooLarge _ _) => [failure.message]
  | .io _ cause => [failure.message, cause.message]
  | _ => [failure.message]

def ofFailure (attempt : String) (failure : Failure) : Report :=
  ⟨attempt, causesOf failure, failure.path?⟩

def ofIo (attempt path : String) (cause : IoCause) : Report :=
  ⟨attempt ++ path, [cause.message], some path⟩

def ofText (text : String) : Report := ⟨text, [], none⟩

end Report

end EnumInline.CommandLine
