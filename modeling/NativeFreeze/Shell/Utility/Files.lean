import NativeFreeze.Shell.Utility.Basic

/-!
# Utilities for files

Programs that make, copy, remove and list files and directories, and those that take paths apart.
-/

namespace NativeFreeze.Shell.Utility

/-- Makes directories. -/
def mkdir (program : Text) (arguments : List Text) : Run Unit :=
  let (options, names) := options arguments
  onEach program (fun a =>
    if given 'p' options then do
      let m ← get
      let (answer, files) := m.files.makeAll ⟨a⟩
      set { m with files }
      return answer
    else change fun t => t.makeDirectory ⟨a⟩) names

/-- Removes files and directories. -/
def rm (program : Text) (arguments : List Text) : Run Unit :=
  let (options, names) := options arguments
  onEach program (fun a => do
    let whole := given 'r' options || given 'R' options
    let answer ← change fun t =>
      match t.linkAt? ⟨a⟩ with
      | .ok (_, .directory) => if whole then t.removeAll ⟨a⟩ else .error .isDirectory
      | _ => t.remove ⟨a⟩
    match answer with
    | .error .notFound => return if given 'f' options then .ok () else answer
    | _ => return answer) names

/-- Makes files that are missing. -/
def touch (program : Text) (arguments : List Text) : Run Unit :=
  onEach program (fun a => change fun t =>
    if t.isThere ⟨a⟩ then .ok t else t.write ⟨a⟩ (.plain [])) (options arguments).2

/-- Where a file goes: into the target, if that is a directory. -/
def into (t : FileTree) (target source : Text) : Path :=
  if t.isDirectory ⟨target⟩ then Path.child ⟨target⟩ ((Path.mk source).fileName?.getD [])
  else ⟨target⟩

/-- Copies files, and removes what was copied if `moving` says so. -/
def copy (moving : Bool) (program : Text) (arguments : List Text) : Run Unit :=
  let (_, names) := options arguments
  match names.getLast? with
  | some target =>
    onEach program (fun a => change fun t => do
      let copied ← t.copy ⟨a⟩ (into t target a)
      if moving then copied.remove ⟨a⟩ else return copied) names.dropLast
  | none => Run.status 1

/-- Makes links. -/
def ln (program : Text) (arguments : List Text) : Run Unit :=
  let (options, names) := options arguments
  match names with
  | [source, target] =>
    onEach program (fun target => change fun t => do
      let goal := into t target source
      let t := if given 'f' options then ((t.remove goal).toOption).getD t else t
      match ← t.find false goal with
      | .taken _ _ => .error .exists
      | .free l =>
        if given 's' options then return t.put l (.link source)
        else return t.put l (← t.at? ⟨source⟩).2) [target]
  | _ => Run.status 1

/-- The names that `ls` writes for a directory. -/
def listed (options : List Text) (entries : List (Text × Entry)) : List Text :=
  ((FileTree.byName entries).map (·.1)).filter fun name =>
    given 'a' options || given 'A' options || name.head? != some '.'

/-- Lists files and directories, one name to a line. -/
def ls (program : Text) (arguments : List Text) : Run Unit :=
  let (options, names) := options arguments
  let several := names.length > 1
  onEach program (fun a => do
    let m ← get
    match m.files.at? ⟨a⟩ with
    | .ok (l, .directory) =>
      if several then Run.write (line (a ++ [':']))
      Run.write ((listed options (m.files.children l)).flatMap line)
      return .ok ()
    | .ok _ =>
      Run.write (line a)
      return .ok ()
    | .error e => return .error e) (if names.isEmpty then [['.']] else names)

/-- A path without the slashes at its end, unless it has nothing else. -/
def withoutEnd (path : Text) : Text :=
  let body := Text.trimEnd (· == '/') path
  if body.isEmpty && !path.isEmpty then ['/'] else body

/-- Cuts a path in front of its last name. -/
def lastCut (path : Text) : Option (Text × Text) :=
  (Text.cutAt? '/' (withoutEnd path).reverse).map fun (name, front) => (front.reverse, name.reverse)

/-- What a path has in front of its last name. -/
def directoryOf (path : Text) : Text :=
  if withoutEnd path = ['/'] then ['/']
  else
    match lastCut path with
    | some (front, _) => if front.isEmpty then ['/'] else withoutEnd front
    | none => ['.']

/-- The last name of a path, without an ending unless it is nothing else. -/
def nameOf (path ending : Text) : Text :=
  if withoutEnd path = ['/'] then ['/']
  else
    let name := ((lastCut path).map (·.2)).getD path
    if Text.endsWith ending name && name ≠ ending then name.take (name.length - ending.length)
    else name

/-- Writes the directories of paths. -/
def dirname (program : Text) : Behaviour :=
  onEach program fun a => do
    Run.write (line (directoryOf a))
    return .ok ()

/-- Writes the name of a path. -/
def basename (arguments : List Text) : Run Unit := do
  match arguments with
  | path :: rest =>
    Run.write (line (nameOf path (rest.headD [])))
    Run.status 0
  | [] => Run.status 1

/-- Writes the directory that a run is in. -/
def pwd : Run Unit := do
  Run.write (line ('/' :: Text.join ['/'] (← get).files.workingDirectory))
  Run.status 0

end NativeFreeze.Shell.Utility
