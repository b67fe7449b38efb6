import NativeFreeze.FileTree.Change
import NativeFreeze.Shell.Format
import NativeFreeze.Shell.Syntax

/-!
# The machine of a shell

What a running script can see and change: the file tree, its variables and arguments, its open
streams, and the clock. A run works on a machine; it either goes on, with the status of the last
command in the machine, or it stops.
-/

namespace NativeFreeze.Shell

/-- Where a stream leads. -/
inductive Channel
  | output
  | errors
  | capture
  | file (l : Location)
  | nowhere
  deriving DecidableEq, Repr

/-- What a running script can see and change. -/
structure Machine where
  files : FileTree
  name : Text
  arguments : List Text
  bindings : List (Text × Text) := []
  /-- The variables that a script hands on to what it starts. -/
  exported : List Text := []
  functions : List (Text × Term) := []
  /-- Whether a command that fails ends the script. -/
  strict : Bool := false
  /-- Whether a variable has to be set before it is used. -/
  demanding : Bool := false
  /-- Whether the present command is a condition. -/
  tested : Bool := false
  /-- What is run at the end of the script. -/
  farewell : Option Text := none
  status : Nat := 0
  streams : List (Nat × Channel) := [(1, .output), (2, .errors)]
  input : Bytes := []
  output : Bytes := []
  errors : Bytes := []
  captured : Bytes := []
  clock : Nat := 0
  limit : Option Nat := none

/-- Why a run does not go on with the next command. -/
inductive Stop
  | leave
  | breaks (levels : Nat)
  | continues (levels : Nat)
  | returns
  | killed (signal : Nat)
  | cut
  deriving DecidableEq, Repr

/-- A run on a machine. -/
abbrev Run := ExceptT Stop (StateM Machine)

namespace Run

/-- How a run ends on a machine. -/
def result {α : Type} (run : Run α) (m : Machine) : Except Stop α × Machine :=
  run.run.run m

/-- Changes the machine after a run, however it ends. -/
def afterwards {α : Type} (run : Run α) (change : Machine → Machine) : Run α :=
  ExceptT.mk fun m =>
    let (answer, m) := run.result m
    (answer, change m)

/-- Handles the stop of a run. -/
def onStop {α : Type} (run : Run α) (handle : Stop → Run α) : Run α :=
  ExceptT.mk fun m =>
    match run.result m with
    | (.ok a, m) => (.ok a, m)
    | (.error stop, m) => (handle stop).result m

/-- Ends a command with a status. -/
def status (n : Nat) : Run Unit :=
  modify fun m => { m with status := n }

/-- Ends a command with the status of a truth value. -/
def truth (b : Bool) : Run Unit :=
  status (if b then 0 else 1)

/-- Leaves the script with a status. -/
def leave {α : Type} (n : Nat) : Run α := do
  status n
  throw .leave

/-- Lets some milliseconds pass; at the limit the run is cut off. -/
def wait (duration : Nat) : Run Unit := do
  let m ← get
  set { m with clock := m.clock + duration }
  if m.limit.any (· ≤ m.clock + duration) then throw .cut

end Run

namespace Machine

/-- The value of a variable, if it is set. -/
def valueOf? (m : Machine) (name : Text) : Option Text :=
  m.bindings.lookup name

/-- The machine without a variable. -/
def unset (name : Text) (m : Machine) : Machine :=
  { m with
    bindings := m.bindings.filter (·.1 != name), exported := m.exported.filter (· != name) }

/-- The machine with a variable set. -/
def assign (name value : Text) (m : Machine) : Machine :=
  { m with bindings := (name, value) :: m.bindings.filter (·.1 != name) }

/-- The machine that hands on some variables. -/
def handOn (names : List Text) (m : Machine) : Machine :=
  { m with exported := names ++ m.exported }

/-- The machine in another directory. -/
def enter (l : Location) (m : Machine) : Machine :=
  assign "PWD".toList ('/' :: Text.join ['/'] l)
    { m with files := { m.files with workingDirectory := l } }

/-- The machine with the options of some letters turned on or off. -/
def setOptions (on : Bool) (letters : Text) (m : Machine) : Machine :=
  { m with
    strict := if letters.contains 'e' then on else m.strict
    demanding := if letters.contains 'u' then on else m.demanding }

/-- The machine with `bytes` written to a channel. -/
def send (bytes : Bytes) (c : Channel) (m : Machine) : Machine :=
  match c with
  | .output => { m with output := m.output ++ bytes }
  | .errors => { m with errors := m.errors ++ bytes }
  | .capture => { m with captured := m.captured ++ bytes }
  | .file l =>
    match m.files.get? l with
    | some (.file content executable) =>
      { m with files := m.files.put l (.file (.plain (content.bytes ++ bytes)) executable) }
    | _ => m
  | .nowhere => m

/-- The machine with `bytes` written to a stream. -/
def write (stream : Nat) (bytes : Bytes) (m : Machine) : Machine :=
  m.send bytes ((m.streams.lookup stream).getD .nowhere)

/-- The machine with a stream led elsewhere. -/
def lead (stream : Nat) (c : Channel) (m : Machine) : Machine :=
  { m with streams := (stream, c) :: m.streams.filter (·.1 != stream) }

/-- The machine after a subshell: what it changed of itself is gone, what it wrote and the time it
took are not. -/
def backFrom (m inner : Machine) : Machine :=
  { m with
    files := { inner.files with workingDirectory := m.files.workingDirectory }
    status := inner.status, input := inner.input, output := inner.output
    errors := inner.errors, captured := inner.captured, clock := inner.clock }

end Machine

namespace Run

/-- Runs `body` to its end, where whoever started it goes on. -/
def contained (body : Run Unit) : Run Unit :=
  body.onStop fun
    | .killed signal => throw (.killed signal)
    | .cut => throw .cut
    | _ => pure ()

/-- Runs `body` in a subshell. -/
def subshell (body : Run Unit) : Run Unit := do
  let m ← get
  (contained body).afterwards m.backFrom

/-- Runs `body` as a condition, whose failure means no harm. -/
def asCondition (body : Run Unit) : Run Unit := do
  let m ← get
  set { m with tested := true }
  body.afterwards fun inner => { inner with tested := m.tested }

/-- Runs a command; under the strict option, one that fails and is no condition ends the script. -/
def checked (body : Run Unit) : Run Unit := do
  body
  let m ← get
  if m.strict && !m.tested && m.status ≠ 0 then throw .leave

/-- What `body` writes to its output, run in a subshell. -/
def capture (body : Run Unit) : Run Bytes := do
  let m ← get
  set ({ m with captured := [] }.lead 1 .capture)
  (subshell body).afterwards fun inner => { inner with streams := m.streams }
  let bytes := (← get).captured
  modify fun inner => { inner with captured := m.captured }
  return bytes

/-- Writes bytes to the output of a command. -/
def write (bytes : Bytes) : Run Unit :=
  modify fun m => m.write 1 bytes

/-- Writes a complaint. -/
def complain (message : Text) : Run Unit :=
  modify fun m => m.write 2 (Text.bytes (message ++ ['\n']))

/-- Opens a file for writing. -/
def openFile (keep : Bool) (p : Path) : Run (Option Channel) := do
  if p.text = "/dev/null".toList then return some .nowhere
  let m ← get
  let files := if keep then m.files.append p [] else m.files.write p (.plain [])
  match files with
  | .ok files =>
    set { m with files }
    match files.at? p with
    | .ok (l, _) => return some (.file l)
    | .error _ => return none
  | .error _ => return none

/-- Performs one redirection whose target is expanded, and tells whether that went well. -/
def redirect (stream : Nat) (kind : RedirectKind) (target : Text) : Run Bool := do
  let m ← get
  match kind with
  | .read =>
    if target = "/dev/null".toList then
      set { m with input := [] }
      return true
    match m.files.read ⟨target⟩ with
    | .ok bytes =>
      set { m with input := bytes }
      return true
    | .error _ => return false
  | .here =>
    set { m with input := target.bytes }
    return true
  | .duplicate =>
    match Text.toNat? target with
    | some other =>
      match m.streams.lookup other with
      | some c =>
        set (m.lead stream c)
        return true
      | none => return other = 0
    | none =>
      set (m.lead stream .nowhere)
      return target = ['-']
  | .truncate =>
    match ← openFile false ⟨target⟩ with
    | some c =>
      modify fun m => m.lead stream c
      return true
    | none => return false
  | .append =>
    match ← openFile true ⟨target⟩ with
    | some c =>
      modify fun m => m.lead stream c
      return true
    | none => return false

end Run

end NativeFreeze.Shell
