import EnumInline.Text.Pieces

/-!
Paths as directions through a tree of directories: steps that are taken one after the other. A step can
lead through a link, so that nothing is cancelled here before the tree is asked.
-/

namespace EnumInline.Path

open Text

def isAbsolute (path : String) : Bool := path.toList.head? == some '/'

/-- The texts between the slashes of a path. -/
def steps (path : String) : List String :=
  (splitWhere (· == '/') path.toList).map String.ofList

def isIdle (step : String) : Bool := step == "" || step == "."

/-- The path `name`, taken from the directory `base` unless it is absolute. -/
def join (base name : String) : String :=
  if isAbsolute name || base.isEmpty then name
  else if base.toList.getLast? == some '/' then base ++ name
  else base ++ "/" ++ name

/-- A path without its last step. Idle steps at its end go with it. What is left of a single step is the
root or, if the path is not absolute, the place where it starts. -/
def directory (path : String) : String :=
  let before := ((steps path).reverse.dropWhile isIdle).drop 1
  let outer := before.dropWhile isIdle
  if !outer.isEmpty then "/".intercalate outer.reverse
  else if isAbsolute path then "/"
  else if before.isEmpty then "" else "."

end EnumInline.Path
