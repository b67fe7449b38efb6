import NativeFreeze.FileTree.Change

/-!
# Shell tests

The expressions of `test`: comparisons of texts and numbers, questions about files, and their
combinations.
-/

namespace NativeFreeze.Shell.Test

/-- The number that a text names. -/
def number? (s : Text) : Option Int :=
  match Text.trim (fun c => c == ' ' || c == '\t' || c == '\n') s with
  | '-' :: r => (Text.toNat? r).map fun n => -(n : Int)
  | '+' :: r => (Text.toNat? r).map fun n => (n : Int)
  | r => (Text.toNat? r).map fun n => (n : Int)

/-- A comparison of two texts as numbers. -/
def numbers (holds : Int → Int → Bool) (a b : Text) : Option Bool := do
  return holds (← number? a) (← number? b)

/-- A comparison of two texts, which may not suit them. -/
def comparison? (operator : Text) : Option (Text → Text → Option Bool) :=
  match String.ofList operator with
  | "=" => some fun a b => some (a = b)
  | "==" => some fun a b => some (a = b)
  | "!=" => some fun a b => some (a != b)
  | "-eq" => some (numbers fun a b => a = b)
  | "-ne" => some (numbers fun a b => a != b)
  | "-lt" => some (numbers fun a b => a < b)
  | "-le" => some (numbers fun a b => a ≤ b)
  | "-gt" => some (numbers fun a b => a > b)
  | "-ge" => some (numbers fun a b => a ≥ b)
  | _ => none

/-- A question about one text. -/
def question? (t : FileTree) (operator : Text) : Option (Text → Bool) :=
  match String.ofList operator with
  | "-n" => some fun s => !s.isEmpty
  | "-z" => some fun s => s.isEmpty
  | "-e" => some fun s => t.isThere ⟨s⟩
  | "-f" => some fun s => t.isFile ⟨s⟩
  | "-d" => some fun s => t.isDirectory ⟨s⟩
  | "-r" => some fun s => t.isThere ⟨s⟩
  | "-w" => some fun s => t.isThere ⟨s⟩
  | "-x" => some fun s =>
    match t.at? ⟨s⟩ with
    | .ok (_, .file _ executable) => executable
    | .ok _ => true
    | .error _ => false
  | "-s" => some fun s =>
    match t.at? ⟨s⟩ with
    | .ok (_, .file content _) => !content.bytes.isEmpty
    | .ok _ => true
    | .error _ => false
  | "-h" => some (isLink t)
  | "-L" => some (isLink t)
  | _ => none
where
  /-- Whether a path names a link. -/
  isLink (t : FileTree) (s : Text) : Bool :=
    match t.linkAt? ⟨s⟩ with
    | .ok (_, .link _) => true
    | _ => false

/-- What a kind of expression is made of. -/
inductive Grade
  | either
  | both
  | single

/-- The value of an expression of some grade and the words behind it; `none` if it is malformed.
`fuel` bounds the number of its steps. -/
def value (t : FileTree) : (fuel : Nat) → Grade → List Text → Option (Bool × List Text)
  | 0, _, _ => none
  | fuel + 1, .either, words => do
    let (a, rest) ← value t fuel .both words
    match rest with
    | ['-', 'o'] :: rest =>
      let (b, rest) ← value t fuel .either rest
      return (a || b, rest)
    | rest => return (a, rest)
  | fuel + 1, .both, words => do
    let (a, rest) ← value t fuel .single words
    match rest with
    | ['-', 'a'] :: rest =>
      let (b, rest) ← value t fuel .both rest
      return (a && b, rest)
    | rest => return (a, rest)
  | fuel + 1, .single, words =>
    match words with
    | [] => none
    | [a] => some (!a.isEmpty, [])
    | a :: b :: rest =>
      match comparison? b, rest with
      | some f, c :: rest => (f a c).map (·, rest)
      | _, _ =>
        if a = ['!'] then (value t fuel .single (b :: rest)).map fun (v, rest) => (!v, rest)
        else if a = ['('] then do
          let (v, rest) ← value t fuel .either (b :: rest)
          if rest.head? = some [')'] then return (v, rest.drop 1) else none
        else
          match question? t a with
          | some f => some (f b, rest)
          | none => some (!a.isEmpty, b :: rest)

/-- The status of a test: 0 if it holds, 1 if it does not, 2 if it is malformed. -/
def status (t : FileTree) (words : List Text) : Nat :=
  if words.isEmpty then 1 else
  match value t (3 * words.length + 3) .either words with
  | some (v, []) => if v then 0 else 1
  | _ => 2

end NativeFreeze.Shell.Test
