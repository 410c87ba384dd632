import EnumInline.FileTree.Lookup

/-!
Building trees entry by entry.
-/

namespace EnumInline.FileTree

/-- Puts an entry below a place at the end of the given names. Directories that are missing on the way are
made, and links on the way are followed. -/
def add (entry : Entry) : FileTree → Place → List String → FileTree
  | tree, _, [] => tree
  | tree, here, [name] => tree.insert (here ++ [name]) entry
  | tree, here, name :: rest =>
      let place := here ++ [name]
      match tree.locate false place.path with
      | .ok found => add entry tree found rest
      | .error _ => add entry (tree.insert place .directory) place rest

/-- The files of a tree that hold something else than in an earlier tree, with what they hold. -/
def changes (before after : FileTree) : List (Place × Content) :=
  after.entries.toList.filterMap fun (place, entry) =>
    match entry with
    | .file content => if before.entries[place]? == some entry then none else some (place, content)
    | _ => none

end EnumInline.FileTree
