import NativeFreeze.FileTree.Change
import NativeFreeze.Shell.Pattern

/-!
# Paths named by patterns

A word with unquoted pattern characters stands for the paths that fit it, in order, or for itself
if there are none.
-/

namespace NativeFreeze.Shell

namespace Marked

/-- Whether an unquoted character makes a pattern. -/
def isPattern (s : Marked) : Bool :=
  s.any fun (quoted, c) => !quoted && ['*', '?', '['].contains c

/-- The characters without their marks. -/
def text (s : Marked) : Text :=
  s.map (·.2)

/-- The pieces between slashes. -/
def pieces : Marked → List Marked
  | [] => [[]]
  | (quoted, c) :: r =>
    if c = '/' then [] :: pieces r
    else
      match pieces r with
      | piece :: rest => ((quoted, c) :: piece) :: rest
      | [] => [[(quoted, c)]]

/-- The names in a directory that a piece of a pattern stands for. A dot at the start of a name has
to be asked for. -/
def namesIn (t : FileTree) (directory : Text) (piece : Marked) : List Text :=
  if !piece.isPattern then [piece.text]
  else
    match t.list ⟨if directory.isEmpty then ['.'] else directory⟩ with
    | .ok entries => (entries.map (·.1)).filter fun name =>
      (name.head? != some '.' || piece.text.head? = some '.') && matchesAll (atoms 0 piece) name
    | .error _ => []

/-- The paths behind `front` that the pieces of a pattern lead to. -/
def pathsBehind (t : FileTree) : (front : Text) → List Marked → List Text
  | front, [] => if t.isThere ⟨front⟩ then [front] else []
  | front, piece :: rest =>
    (namesIn t front piece).flatMap fun name =>
      pathsBehind t (front ++ name ++ if rest.isEmpty then [] else ['/']) rest

/-- The texts that a word with marked characters stands for. -/
def paths (t : FileTree) (s : Marked) : List Text :=
  if s.isPattern then
    match (pathsBehind t [] s.pieces).mergeSort Text.le with
    | [] => [s.text]
    | found => found
  else [s.text]

end Marked

end NativeFreeze.Shell
