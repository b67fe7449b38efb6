import NativeFreeze.Archive
import NativeFreeze.Path.Basic

/-!
# File trees

A file tree maps locations to files, directories and links. A location is the list of the names
that lead to it from the root, which is always a directory. Programs name locations by paths: the
tree remembers the working directory that relative paths start from. `FileTree.find` follows a path
as an operating system does, through links and upward steps.
-/

namespace NativeFreeze

/-- The names that lead from the root to an entry. -/
abbrev Location := List Text

/-- What a file holds: plain bytes or an archive. -/
inductive Content
  | plain (bytes : Bytes)
  | archive (members : Archive)
  deriving DecidableEq, Repr

/-- The bytes of a file. -/
def Content.bytes : Content → Bytes
  | plain bytes => bytes
  | archive members => members.bytes

/-- An entry of a file tree. -/
inductive Entry
  | directory
  | file (content : Content) (executable : Bool)
  | link (target : Text)
  deriving DecidableEq, Repr

/-- Whether an entry is a regular file. -/
def Entry.isFile : Entry → Bool
  | file .. => true
  | _ => false

/-- Whether an entry is a directory. -/
def Entry.isDirectory : Entry → Bool
  | directory => true
  | _ => false

/-- Why a file operation was refused. -/
inductive FileError
  | notFound
  | notDirectory
  | isDirectory
  | exists
  | denied
  | tooManyLinks
  | nameTooLong
  | badName
  | notProgram
  | notUtf8
  | notRegular
  deriving DecidableEq, Repr

/-- The wording of a refusal. -/
def FileError.message : FileError → String
  | notFound => "No such file or directory (os error 2)"
  | notDirectory => "Not a directory (os error 20)"
  | isDirectory => "Is a directory (os error 21)"
  | .exists => "File exists (os error 17)"
  | denied => "Permission denied (os error 13)"
  | tooManyLinks => "Too many levels of symbolic links (os error 40)"
  | nameTooLong => "File name too long (os error 36)"
  | badName => "file name contained an unexpected NUL byte"
  | notProgram => "Exec format error (os error 8)"
  | notUtf8 => "stream did not contain valid UTF-8"
  | notRegular => "the source path is neither a regular file nor a symlink to a regular file"

/-- A file tree seen from a working directory. Sealed locations refuse to be changed or removed. -/
structure FileTree where
  entries : List (Location × Entry) := []
  workingDirectory : Location := []
  sealed : List Location := []
  deriving DecidableEq, Repr, Inhabited

namespace FileTree

/-- The entry at a location; the root is a directory. -/
def get? (t : FileTree) (l : Location) : Option Entry :=
  if l = [] then some .directory else t.entries.lookup l

/-- The entries with `e` at `l`: in the place of what was there, or else at the end. -/
def putIn (l : Location) (e : Entry) : List (Location × Entry) → List (Location × Entry)
  | [] => [(l, e)]
  | (k, d) :: rest => if k = l then (l, e) :: rest else (k, d) :: putIn l e rest

/-- The tree with entry `e` at location `l`. -/
def put (t : FileTree) (l : Location) (e : Entry) : FileTree :=
  { t with entries := putIn l e t.entries }

/-- The tree without the entry at `l`. -/
def erase (t : FileTree) (l : Location) : FileTree :=
  { t with entries := t.entries.filter fun (k, _) => k ≠ l }

/-- The tree without the entry at `l` and those below it. -/
def prune (t : FileTree) (l : Location) : FileTree :=
  { t with entries := t.entries.filter fun (k, _) => !l.isPrefixOf k }

/-- The name under which an entry at `k` stands directly in `l`. -/
def nameIn? (l k : Location) : Option Text :=
  if k.dropLast = l then k.getLast? else none

/-- The entries directly in the directory `l`, by name. -/
def children (t : FileTree) (l : Location) : List (Text × Entry) :=
  t.entries.filterMap fun (k, e) => (nameIn? l k).map (·, e)

/-- One step along a path: staying, going up, or entering a name. -/
inductive Step
  | stay
  | up
  | enter (name : Text)
  deriving DecidableEq, Repr

/-- The step that a piece of a path asks for. -/
def Step.ofPiece (piece : Text) : Step :=
  if piece.isEmpty || piece == ['.'] then .stay
  else if piece = ['.', '.'] then .up
  else .enter piece

/-- What a path leads to: an entry, or a free name in a directory. -/
inductive Place
  | taken (l : Location) (e : Entry)
  | free (l : Location)
  deriving DecidableEq, Repr

/-- The longest name that a directory admits, in bytes. -/
def longestName : Nat := 255

/-- Follows the steps from location `l`. Where a link has to be followed, `again` goes on with the
steps of its target in front of the rest. A link at the end is followed if `last` says so. -/
def follow (t : FileTree) (last : Bool) (again : Location → List Step → Except FileError Place) :
    Location → List Step → Except FileError Place
  | l, [] =>
    match t.get? l with
    | some e => .ok (.taken l e)
    | none => .error .notFound
  | l, step :: rest =>
    match t.get? l with
    | none => .error .notFound
    | some .directory =>
      match step with
      | .stay => follow t last again l rest
      | .up => follow t last again l.dropLast rest
      | .enter name =>
        if longestName < name.bytes.length then .error .nameTooLong else
        match t.get? (l ++ [name]) with
        | none => if rest = [] then .ok (.free (l ++ [name])) else .error .notFound
        | some (.link target) =>
          if rest = [] && !last then .ok (.taken (l ++ [name]) (.link target))
          else if target.isEmpty then .error .notFound
          else again (if target.head? = some '/' then [] else l)
            ((Text.split '/' target).map Step.ofPiece ++ rest)
        | some _ => follow t last again (l ++ [name]) rest
    | some _ => .error .notDirectory

/-- Follows the steps through at most `links` links. -/
def walk (t : FileTree) (last : Bool) : (links : Nat) → Location → List Step →
    Except FileError Place
  | 0 => fun _ _ => .error .tooManyLinks
  | links + 1 => follow t last (walk t last links)

/-- How many links one path may lead through. -/
def linkLimit : Nat := 40

/-- What path `p` leads to. -/
def find (t : FileTree) (last : Bool) (p : Path) : Except FileError Place :=
  if p.text.isEmpty then .error .notFound
  else if p.text.contains '\x00' then .error .badName
  else walk t last (linkLimit + 1) (if p.isAbsolute then [] else t.workingDirectory)
    ((Text.split '/' p.text).map Step.ofPiece)

/-- The entry that `p` names, links followed. -/
def at? (t : FileTree) (p : Path) : Except FileError (Location × Entry) :=
  match t.find true p with
  | .ok (.taken l e) => .ok (l, e)
  | .ok (.free _) => .error .notFound
  | .error e => .error e

/-- The entry that `p` names, a link at the end not followed. -/
def linkAt? (t : FileTree) (p : Path) : Except FileError (Location × Entry) :=
  match t.find false p with
  | .ok (.taken l e) => .ok (l, e)
  | .ok (.free _) => .error .notFound
  | .error e => .error e

/-- Whether `p` names anything. -/
def isThere (t : FileTree) (p : Path) : Bool :=
  (t.at? p).isOk

/-- Whether `p` names a regular file. -/
def isFile (t : FileTree) (p : Path) : Bool :=
  match t.at? p with
  | .ok (_, e) => e.isFile
  | .error _ => false

/-- Whether `p` names a directory. -/
def isDirectory (t : FileTree) (p : Path) : Bool :=
  match t.at? p with
  | .ok (_, e) => e.isDirectory
  | .error _ => false

theorem lookup_putIn (l k : Location) (e : Entry) (es : List (Location × Entry)) :
    (putIn l e es).lookup k = if k = l then some e else es.lookup k := by
  induction es with
  | nil =>
    by_cases h : k = l
    · simp [putIn, h]
    · simp [putIn, List.lookup_cons, h, beq_false_of_ne h]
  | cons x rest ih =>
    obtain ⟨j, d⟩ := x
    by_cases hj : j = l
    · subst hj
      by_cases h : k = j
      · simp [putIn, h]
      · simp [putIn, List.lookup_cons, h, beq_false_of_ne h]
    · by_cases hk : k = j
      · subst hk; simp [putIn, hj]
      · simp [putIn, hj, List.lookup_cons, beq_false_of_ne hk, ih]

/-- Storing an entry changes what is at its own location and nothing else. -/
theorem get?_put (t : FileTree) (l k : Location) (e : Entry) (hl : l ≠ []) :
    (t.put l e).get? k = if k = l then some e else t.get? k := by
  by_cases hk : k = []
  · subst hk; simp [get?, Ne.symm hl]
  · simp [get?, put, hk, lookup_putIn]

end FileTree

end NativeFreeze
