import NativeFreeze.FileTree.Basic

/-!
# Loading and comparing file trees

A tree is made from a list of files and the directories above them. Two trees are compared by the
entries that differ.
-/

namespace NativeFreeze.FileTree

/-- The location that a path names from `base`; upward steps are taken in the text alone. -/
def locate (base : Location) (p : Path) : Location :=
  ((Text.split '/' p.text).map Step.ofPiece).foldl (fun l step =>
    match step with
    | .stay => l
    | .up => l.dropLast
    | .enter name => l ++ [name]) (if p.isAbsolute then [] else base)

/-- The tree with the directories above `l` that are missing. -/
def withParents (t : FileTree) (l : Location) : FileTree :=
  (List.range l.length).foldl (fun t n =>
    if (t.get? (l.take n)).isSome then t else t.put (l.take n) .directory) t

/-- The tree with an entry and the directories above it. -/
def plant (t : FileTree) (l : Location) (e : Entry) : FileTree :=
  (t.withParents l).put l e

/-- The tree of some entries, seen from a working directory. -/
def ofEntries (workingDirectory : Location) (entries : List (Location × Entry)) : FileTree :=
  entries.foldl (fun t (l, e) => t.plant l e)
    (if workingDirectory = [] then {}
      else { FileTree.plant {} workingDirectory .directory with workingDirectory })

/-- The entries of `after` that are new or differ from those of `before`. -/
def changed (before after : FileTree) : List (Location × Entry) :=
  after.entries.filter fun (l, e) => before.get? l != some e

/-- The locations of `before` at which `after` has nothing. -/
def removed (before after : FileTree) : List Location :=
  (before.entries.map (·.1)).filter fun l => (after.get? l).isNone

end NativeFreeze.FileTree
