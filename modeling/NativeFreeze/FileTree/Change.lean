import NativeFreeze.FileTree.Basic

/-!
# Reading and changing file trees

Reading, writing, copying and removing files, making and listing directories, and visiting what
lies below one. An operation that is refused leaves the tree alone, except that `makeAll` keeps the
directories it made before the refusal.
-/

namespace NativeFreeze.FileTree

/-- The bytes of the file `p`. -/
def read (t : FileTree) (p : Path) : Except FileError Bytes :=
  match t.at? p with
  | .ok (_, .file content _) => .ok content.bytes
  | .ok _ => .error .isDirectory
  | .error e => .error e

/-- The text of the file `p`. -/
def readText (t : FileTree) (p : Path) : Except FileError Text :=
  match t.read p with
  | .ok bytes =>
    match Utf8.decode? bytes with
    | some s => .ok s
    | none => .error .notUtf8
  | .error e => .error e

/-- Stores `content` at a place; a file that is there keeps its mark as a program. -/
def store (t : FileTree) (content : Content) : Place → Except FileError FileTree
  | .taken l (.file _ executable) =>
    if l ∈ t.sealed then .error .denied else .ok (t.put l (.file content executable))
  | .taken _ _ => .error .isDirectory
  | .free l => if l ∈ t.sealed then .error .denied else .ok (t.put l (.file content false))

/-- The tree with `content` in the file `p`, which is made if it is missing. -/
def write (t : FileTree) (p : Path) (content : Content) : Except FileError FileTree :=
  match t.find true p with
  | .ok place => t.store content place
  | .error e => .error e

/-- The tree with `bytes` added at the end of the file `p`, which is made if it is missing. -/
def append (t : FileTree) (p : Path) (bytes : Bytes) : Except FileError FileTree :=
  match t.find true p with
  | .ok (.taken l (.file content executable)) =>
    t.store (.plain (content.bytes ++ bytes)) (.taken l (.file content executable))
  | .ok place => t.store (.plain bytes) place
  | .error e => .error e

/-- The tree with the file `source` copied to `target`, together with its mark as a program. The
target is emptied before the first byte is read, so a file copied onto itself ends empty. -/
def copy (t : FileTree) (source target : Path) : Except FileError FileTree :=
  match t.at? source with
  | .error e => .error e
  | .ok (l, .file content executable) =>
    match t.find true target with
    | .error e => .error e
    | .ok (.taken k (.file _ _)) =>
      if k ∈ t.sealed then .error .denied
      else .ok (t.put k (.file (if k = l then .plain [] else content) executable))
    | .ok (.taken _ _) => .error .isDirectory
    | .ok (.free k) =>
      if k ∈ t.sealed then .error .denied else .ok (t.put k (.file content executable))
  | .ok _ => .error .notRegular

/-- The tree without the file or link `p`. -/
def remove (t : FileTree) (p : Path) : Except FileError FileTree :=
  match t.linkAt? p with
  | .ok (_, .directory) => .error .isDirectory
  | .ok (l, _) => if l ∈ t.sealed then .error .denied else .ok (t.erase l)
  | .error e => .error e

/-- The tree without the directory `p` and all below it. A link is removed by itself. -/
def removeAll (t : FileTree) (p : Path) : Except FileError FileTree :=
  match t.linkAt? p with
  | .ok (l, .directory) =>
    if t.sealed.any l.isPrefixOf then .error .denied else .ok (t.prune l)
  | .ok (l, .link _) => if l ∈ t.sealed then .error .denied else .ok (t.erase l)
  | .ok _ => .error .notDirectory
  | .error e => .error e

/-- The tree with the new directory `p`. -/
def makeDirectory (t : FileTree) (p : Path) : Except FileError FileTree :=
  match t.find false ⟨if p.text.all (· == '/') then p.text else Text.trimEnd (· == '/') p.text⟩ with
  | .ok (.taken _ _) => .error .exists
  | .ok (.free l) => if l ∈ t.sealed then .error .denied else .ok (t.put l .directory)
  | .error e => .error e

/-- Makes the first of the paths, each of which is the parent of the one before it; where it cannot
stand yet, the others are made first. The empty path is always there. -/
def makeChain (t : FileTree) : List Path → Except FileError Unit × FileTree
  | [] => (.error .notFound, t)
  | p :: above =>
    if p.text.isEmpty then (.ok (), t) else
    match t.makeDirectory p with
    | .ok t => (.ok (), t)
    | .error .notFound =>
      match makeChain t above with
      | (.error e, t) => (.error e, t)
      | (.ok (), t) =>
        match t.makeDirectory p with
        | .ok t => (.ok (), t)
        | .error e => if t.isDirectory p then (.ok (), t) else (.error e, t)
    | .error e => if t.isDirectory p then (.ok (), t) else (.error e, t)

/-- Makes the directory `p` and those it needs above it. -/
def makeAll (t : FileTree) (p : Path) : Except FileError Unit × FileTree :=
  t.makeChain p.ancestors

/-- The entries of the directory `p`, links not followed. -/
def list (t : FileTree) (p : Path) : Except FileError (List (Text × Entry)) :=
  match t.at? p with
  | .ok (l, .directory) => .ok (t.children l)
  | .ok _ => .error .notDirectory
  | .error e => .error e

/-- Entries in ascending order of their names. -/
def byName (entries : List (Text × Entry)) : List (Text × Entry) :=
  entries.mergeSort fun a b => Text.le a.1 b.1

/-- Visits what lies below the directory `l`, whose path is `p`: depth first, the entries of each
directory by name, without the names that `skip` rejects and without what is below those. Links are
not followed. The first argument bounds the depth. -/
def visitWithin (t : FileTree) (skip : Text → Bool) : Nat → Location → Path → List (Path × Entry)
  | 0, _, _ => []
  | depth + 1, l, p =>
    ((byName (t.children l)).filter fun (name, _) => !skip name).flatMap fun (name, e) =>
      (p.child name, e) ::
        if e.isDirectory then visitWithin t skip depth (l ++ [name]) (p.child name) else []

/-- Visits what lies below the directory `l`, whose path is `p`. -/
def visit (t : FileTree) (skip : Text → Bool) (l : Location) (p : Path) : List (Path × Entry) :=
  t.visitWithin skip (t.entries.length + 1) l p

end NativeFreeze.FileTree
