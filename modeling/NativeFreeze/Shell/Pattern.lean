import NativeFreeze.Text.Basic

/-!
# Shell patterns

The patterns of a `case`, of the trimming parameter expansions and of paths. A character stands for
itself if it was quoted; an unquoted `*` stands for any text, `?` for any character, and a bracket
expression for one of the characters that it lists.
-/

namespace NativeFreeze.Shell

/-- An element of a pattern. -/
inductive Atom
  | one (c : Char)
  | any
  | many
  | range (negated : Bool) (ranges : List (Char × Char))
  deriving DecidableEq, Repr

namespace Atom

/-- Whether an element stands for the character `c`. -/
def admits (c : Char) : Atom → Bool
  | one d => c == d
  | any => true
  | many => false
  | range negated ranges => negated != ranges.any fun (lo, hi) => lo ≤ c && c ≤ hi

/-- The ranges of a bracket expression up to its end, and the characters behind it. A bracket that
comes first is listed. -/
def ranges : (start : Bool) → Text → Option (List (Char × Char) × Text)
  | _, [] => none
  | start, c :: '-' :: d :: r =>
    if c = ']' && !start then some ([], '-' :: d :: r)
    else if d = ']' then some ([(c, c), ('-', '-')], r)
    else (ranges false r).map fun (found, r) => ((c, d) :: found, r)
  | start, c :: r =>
    if c = ']' && !start then some ([], r)
    else (ranges false r).map fun (found, r) => ((c, c) :: found, r)

/-- A bracket expression, its opening bracket read. -/
def bracket? (s : Text) : Option (Atom × Text) :=
  match s with
  | '!' :: r => (ranges true r).map fun (found, r) => (range true found, r)
  | '^' :: r => (ranges true r).map fun (found, r) => (range true found, r)
  | r => (ranges true r).map fun (found, r) => (range false found, r)

end Atom

/-- A text whose characters are marked as quoted or not. -/
abbrev Marked := List (Bool × Char)

/-- The elements of a text with marked characters; `skip` counts the characters that belong to the
element before. -/
def atoms : (skip : Nat) → Marked → List Atom
  | _, [] => []
  | skip + 1, _ :: r => atoms skip r
  | 0, (true, c) :: r => .one c :: atoms 0 r
  | 0, (false, c) :: r =>
    if c = '*' then .many :: atoms 0 r
    else if c = '?' then .any :: atoms 0 r
    else if c = '[' then
      match Atom.bracket? (r.map (·.2)) with
      | some (a, rest) => a :: atoms (r.length - rest.length) r
      | none => .one c :: atoms 0 r
    else .one c :: atoms 0 r

/-- Whether the elements stand for the whole text. -/
def matchesAll : List Atom → Text → Bool
  | [], s => s.isEmpty
  | .many :: as, [] => matchesAll as []
  | .many :: as, c :: s => matchesAll as (c :: s) || matchesAll (.many :: as) s
  | _ :: _, [] => false
  | a :: as, c :: s => a.admits c && matchesAll as s
termination_by as s => (as.length, s.length)

/-- The fronts of a text, the shortest first, each with what follows it. -/
def fronts (s : Text) : List (Text × Text) :=
  (List.range (s.length + 1)).map s.splitAt

/-- A text without a front that the elements stand for: the longest one or the shortest one. -/
def trimFront (longest : Bool) (as : List Atom) (s : Text) : Text :=
  let cuts := if longest then (fronts s).reverse else fronts s
  ((cuts.find? fun (front, _) => matchesAll as front).map (·.2)).getD s

/-- A text without an end that the elements stand for: the longest one or the shortest one. -/
def trimBack (longest : Bool) (as : List Atom) (s : Text) : Text :=
  let cuts := if longest then fronts s else (fronts s).reverse
  ((cuts.find? fun (_, back) => matchesAll as back).map (·.1)).getD s

end NativeFreeze.Shell
