import EnumInline.Failure
import EnumInline.FileTree.Basic
import EnumInline.Path.Steps

/-!
Finding places in a tree by their paths. Links are followed wherever they stand on a path, and each step
can only be taken from a directory.
-/

namespace EnumInline.FileTree

/-- How a path ends: at a place, or at a link that has to be followed from the directory it is in before
the rest of the path. -/
inductive Walk where
  | arrived (place : Place)
  | atLink (directory : Place) (target : String) (rest : List String)

/-- Whether nothing but slashes is left of a path, at least one. -/
def endsInSlash (rest : List String) : Bool := !rest.isEmpty && rest.all (· == "")

/-- Takes steps from a place up to the first link. If `creating` holds, the last step may lead to a place
where nothing is yet, and the path must not end in a slash. -/
def walk (tree : FileTree) (creating : Bool) (here : Place) : List String → Except IoCause Walk
  | [] => .ok (.arrived here)
  | step :: rest =>
      match tree.get? here with
      | none => .error .notFound
      | some .directory =>
          if Path.isIdle step then walk tree creating here rest
          else if step == ".." then walk tree creating here.dropLast rest
          else if creating && endsInSlash rest then .error .isADirectory
          else
            let place := here ++ [step]
            match tree.get? place with
            | none => if creating && rest.isEmpty then .ok (.arrived place) else .error .notFound
            | some (.link target) => .ok (.atLink here target rest)
            | some _ => walk tree creating place rest
      | some _ => .error .notADirectory

/-- The most links that are followed on one path. -/
def maxLinks : Nat := 40

/-- Takes steps from a place, following up to `links` links. -/
def follow (tree : FileTree) (creating : Bool) :
    (links : Nat) → Place → List String → Except IoCause Place
  | links, here, steps =>
      match tree.walk creating here steps with
      | .error cause => .error cause
      | .ok (.arrived place) => .ok place
      | .ok (.atLink directory target rest) =>
          match links with
          | 0 => .error .tooManyLinks
          | links + 1 =>
              follow tree creating links (if Path.isAbsolute target then [] else directory)
                (Path.steps target ++ rest)

/-- The place where a path starts. -/
def origin (tree : FileTree) (path : String) : Place :=
  if Path.isAbsolute path then [] else tree.workingDirectory

/-- The place to which a path leads. -/
def locate (tree : FileTree) (creating : Bool) (path : String) : Except IoCause Place :=
  if path.isEmpty then .error .notFound
  else if path.toList.contains '\x00' then .error .badName
  else tree.follow creating maxLinks (tree.origin path) (Path.steps path)

/-- Whether a path leads anywhere. -/
def contains (tree : FileTree) (path : String) : Bool := (tree.locate false path).isOk

/-- The absolute path without links of the place to which a path leads. -/
def canonicalize (tree : FileTree) (path : String) : Except IoCause String :=
  (tree.locate false path).map Place.path

/-- What the file at a path holds. -/
def content (tree : FileTree) (path : String) : Except IoCause Content :=
  match tree.locate false path with
  | .error cause => .error cause
  | .ok place =>
      match tree.get? place with
      | some (.file content) => .ok content
      | some .directory => .error .isADirectory
      | _ => .error .notFound

/-- The text of the file at a path. -/
def read (tree : FileTree) (path : String) : Except IoCause String :=
  match tree.content path with
  | .error cause => .error cause
  | .ok (.text text) => .ok text
  | .ok (.binary _) => .error .notText

/-- Writes a text to the file at a path. If there is none, it is created in its directory. -/
def write (tree : FileTree) (path text : String) : Except IoCause FileTree :=
  match tree.locate true path with
  | .error cause => .error cause
  | .ok place =>
      if tree.get? place == some .directory then .error .isADirectory
      else .ok (tree.insert place (.file (.text text)))

def isLink (tree : FileTree) (path : String) : Bool :=
  match (Path.steps path).reverse with
  | [] => false
  | name :: before =>
      match tree.follow false maxLinks (tree.origin path) before.reverse with
      | .error _ => false
      | .ok directory =>
          match tree.get? (directory ++ [name]) with
          | some (.link _) => true
          | _ => false

end EnumInline.FileTree
