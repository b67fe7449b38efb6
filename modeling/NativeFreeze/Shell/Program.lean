import NativeFreeze.FileTree.Change

/-!
# Finding programs

A command names a program by a path, or by a name that is searched in a list of directories. A
program of a file tree is a file marked as a program whose first line names an interpreter; the
programs of the system are known by their names.
-/

namespace NativeFreeze.Shell

/-- A program of the system, and arguments that stand in front of those of the command. -/
structure Program where
  name : Text
  front : List Text := []
  deriving DecidableEq, Repr

namespace Program

/-- The names of the programs of the system. -/
def systemNames : List Text :=
  ["sh", "dash", "bash", "env", "basename", "cat", "cp", "dirname", "echo", "false", "head", "ln",
    "ls", "mkdir", "mv", "printf", "pwd", "rm", "sleep", "tail", "tee", "test", "touch", "true",
    "wc"].map String.toList

/-- The directories of the system that hold programs. -/
def systemDirectories : List Text :=
  ["/bin/", "/usr/bin/"].map String.toList

/-- The program of the system that a path names. -/
def ofSystem? (path : Text) : Option Program :=
  (systemDirectories.filterMap fun d => Text.after? d path).findSome? fun name =>
    if systemNames.contains name then some ⟨name, []⟩ else none

/-- The interpreter that a first line names, with the one argument that it may carry. -/
def interpreter? (line : Text) : Except FileError Program :=
  let isBlank := fun (c : Char) => c == ' ' || c == '\t'
  let line := Text.trim isBlank line
  let path := line.takeWhile fun c => !isBlank c
  let argument := (line.drop path.length).dropWhile isBlank
  match ofSystem? path with
  | some program => .ok { program with front := if argument.isEmpty then [] else [argument] }
  | none => .error .notFound

/-- The program that a path names. -/
def at? (t : FileTree) (p : Path) : Except FileError Program :=
  match ofSystem? p.text with
  | some program => .ok program
  | none =>
    match t.at? p with
    | .error e => .error e
    | .ok (_, .file content true) =>
      match Utf8.decodeLossy content.bytes with
      | '#' :: '!' :: r =>
        (interpreter? (r.takeWhile (· != '\n'))).map fun program =>
          { program with front := program.front ++ [p.text] }
      | _ => .error .notProgram
    | .ok _ => .error .denied

/-- The first program called `name` in some directories. Where there is none, a file that may not
be started counts more than a missing one. -/
def search (t : FileTree) (name : Text) : List Text → (refused : FileError) →
    Except FileError Program
  | [], refused => .error refused
  | directory :: rest, refused =>
    match at? t (Path.child ⟨directory⟩ name) with
    | .error .denied => search t name rest .denied
    | .error .notProgram => .error .notProgram
    | .error _ => search t name rest refused
    | .ok program => .ok program

/-- The program that a command asks for. -/
def find (t : FileTree) (directories name : Text) : Except FileError Program :=
  if name.isEmpty then .error .notFound
  else if name.contains '\x00' then .error .badName
  else if name.contains '/' then at? t ⟨name⟩
  else search t name (Text.split ':' directories) .notFound

end Program

end NativeFreeze.Shell
