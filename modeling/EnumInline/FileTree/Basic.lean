import Std.Data.ExtTreeMap

/-!
Trees of directories, files and links.
-/

namespace EnumInline

/-- The names on the way from the root of a tree to a place in it. -/
abbrev Place := List String

def Place.path (place : Place) : String := "/" ++ "/".intercalate place

/-- What a file holds. Of bytes that are no text only the number is kept. -/
inductive Content where
  | text (text : String)
  | binary (size : Nat)
  deriving DecidableEq, Repr

/-- The number of bytes of a file. -/
def Content.size : Content → Nat
  | .text written => written.utf8ByteSize
  | .binary size => size

inductive Entry where
  | file (content : Content)
  | directory
  | link (target : String)
  deriving DecidableEq, Repr

/-- A tree, as a program sees it that runs in one of its directories. What is not below directories of
the tree cannot be reached. -/
structure FileTree where
  entries : Std.ExtTreeMap Place Entry
  workingDirectory : Place

namespace FileTree

def empty : FileTree := ⟨∅, []⟩

/-- What is at a place. The root is a directory. -/
def get? (tree : FileTree) (place : Place) : Option Entry :=
  if place.isEmpty then some .directory else tree.entries[place]?

/-- Puts an entry at a place. -/
def insert (tree : FileTree) (place : Place) (entry : Entry) : FileTree :=
  { tree with entries := tree.entries.insert place entry }

/-- Whether every place on the way from `place` along `names` is a directory, the last name apart. -/
def isWay (tree : FileTree) (place : Place) : List String → Bool
  | [] => true
  | name :: rest => tree.get? place == some .directory && isWay tree (place ++ [name]) rest

end FileTree

end EnumInline
