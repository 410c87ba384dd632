import EnumInline.Text.Pieces

/-!
The normal spelling of a path. It is found from the text alone: no file system is asked.
-/

namespace EnumInline.Path

open Text

/-- Backslashes read as slashes. -/
def withSlashes (path : List Char) : List Char := path.map fun c => if c = '\\' then '/' else c

/-- Follows one segment from the place whose segments are `stack`, the innermost first. From the root, the
step upwards stays where it is; elsewhere it is kept if there is nothing to leave. -/
def follow (absolute : Bool) (stack : List (List Char)) (segment : List Char) : List (List Char) :=
  if segment = [] ∨ segment = ['.'] then stack
  else if segment = ['.', '.'] then
    match stack with
    | [] => if absolute then [] else [segment]
    | last :: outer =>
        if last ≠ ['.', '.'] then outer else if absolute then stack else segment :: stack
  else segment :: stack

/-- The segments of the place that a path leads to, the outermost first. -/
def places (absolute : Bool) (path : List Char) : List (List Char) :=
  ((splitWhere (· == '/') path).foldl (follow absolute) []).reverse

/-- The segments joined by slashes. -/
def spell (absolute : Bool) (segments : List (List Char)) : List Char :=
  let joined := List.intercalate ['/'] segments
  if absolute then '/' :: joined else joined

/-- The path without empty segments, without `.` and with `..` resolved. -/
def normalizeChars (path : List Char) : List Char :=
  let path := withSlashes path
  let absolute := path.head? == some '/'
  spell absolute (places absolute path)

def normalize : String → String := onChars normalizeChars

/-- The text before the last slash; empty if there is none. -/
def parent (path : String) : String :=
  onChars (fun chars => ((chars.reverse.dropWhile (· != '/')).drop 1).reverse) path

/-- The path of `name` seen from `directory`. -/
def below (directory name : String) : String := directory ++ "/" ++ name

/-- The normal spelling of the path `name`, taken from `directory` unless it is absolute. -/
def resolve (directory name : String) : String :=
  let slashed := onChars withSlashes name
  normalize (if slashed.toList.head? == some '/' then slashed else below directory slashed)

end EnumInline.Path
