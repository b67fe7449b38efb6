import NativeFreeze.Failure
import NativeFreeze.FileTree.Change
import NativeFreeze.Log
import NativeFreeze.Tool.Request

/-!
# Workspaces and actions

A workspace is all that a build can change: the file tree, what was written to the output stream,
the log, the requests made to tools, and the list of artifacts to be cleaned up. An action runs on a
workspace and may fail; what it changed before the failure stays changed. A stage is an action that
also owns a part, such as a unit or a node; it can change its part even when it fails.
-/

namespace NativeFreeze

/-- All that a build can change. -/
structure Workspace where
  files : FileTree := {}
  output : Bytes := []
  log : List Log.Record := []
  requests : List Request := []
  artifacts : List Path := []
  deriving Inhabited

/-- A computation on a workspace that may fail. -/
abbrev Action := ExceptT Failure (StateM Workspace)

/-- A computation on a part and a workspace that may fail. -/
abbrev Stage (σ : Type) := ExceptT Failure (StateT σ (StateM Workspace))

namespace Action

/-- What an action answers and the workspace that it leaves. -/
def result {α : Type} (action : Action α) (w : Workspace) : Except Failure α × Workspace :=
  action.run.run w

/-- Fails. -/
def fail {α : Type} (cause : Cause) (during : Option Activity := none) : Action α :=
  throw ⟨cause, during⟩

/-- The file tree as it is. -/
def files : Action FileTree :=
  return (← get).files

/-- The answer of a pure operation that may fail. -/
def ofExcept {α : Type} : Except Failure α → Action α
  | .ok a => pure a
  | .error e => throw e

/-- The answer of a file operation that changes nothing. -/
def ask {α : Type} (during : Option Activity) (operation : FileTree → Except FileError α) :
    Action α := do
  match operation (← files) with
  | .ok a => pure a
  | .error e => fail (.file e) during

/-- Changes the file tree, unless the change is refused. -/
def change (during : Option Activity) (operation : FileTree → Except FileError FileTree) :
    Action Unit := do
  let t ← ask during operation
  modify fun w => { w with files := t }

/-- Makes a directory and those above it. -/
def makeAll (during : Option Activity) (p : Path) : Action Unit := do
  let (answer, t) := (← files).makeAll p
  modify fun w => { w with files := t }
  match answer with
  | .ok () => pure ()
  | .error e => fail (.file e) during

/-- Makes the directory that `p` stands in, unless that is the working directory. -/
def makeParent (during : Path → Option Activity) (p : Path) : Action Unit :=
  match p.parent? with
  | some above => if above.text.isEmpty then pure () else makeAll (during above) above
  | none => pure ()

/-- Adds a record to the log. -/
def note (level : Log.Level) (topic : Log.Topic) (message : Text) : Action Unit :=
  modify fun w => { w with log := w.log ++ [⟨level, topic, message⟩] }

/-- Notes a request to a tool. -/
def request (r : Request) : Action Unit :=
  modify fun w => { w with requests := w.requests ++ [r] }

/-- Writes to the output stream. -/
def print (bytes : Bytes) : Action Unit :=
  modify fun w => { w with output := w.output ++ bytes }

/-- Remembers a file that the build produced and may remove later. -/
def record (p : Path) : Action Unit :=
  modify fun w => { w with artifacts := w.artifacts ++ [p] }

/-- Starts a command; a failure to start it ends the action. -/
def launch (around : Surroundings) (during : Activity) (command : Command)
    (limit : Option Nat := none) : Action Finished := do
  let (answer, t) := around.launch command limit (← files)
  modify fun w => { w with files := t }
  match answer with
  | .ok finished => pure finished
  | .error e => fail (.file e) (some during)

end Action

namespace Stage

/-- What a stage answers, and the part and the workspace that it leaves. -/
def result {σ α : Type} (stage : Stage σ α) (part : σ) (w : Workspace) :
    Except Failure α × σ × Workspace :=
  let ((answer, part), w) := stage.run.run part |>.run w
  (answer, part, w)

/-- A stage from its result. -/
def ofResult {σ α : Type} (f : σ → Workspace → Except Failure α × σ × Workspace) : Stage σ α :=
  ExceptT.mk fun part w =>
    let (answer, part, w) := f part w
    ((answer, part), w)

/-- An action as a stage that leaves its part alone. -/
def ofTask {σ α : Type} (action : Action α) : Stage σ α :=
  ofResult fun part w =>
    let (answer, w) := action.result w
    (answer, part, w)

/-- The part as it is. -/
def part {σ : Type} : Stage σ σ :=
  ofResult fun part w => (.ok part, part, w)

/-- Changes the part. -/
def update {σ : Type} (f : σ → σ) : Stage σ Unit :=
  ofResult fun part w => (.ok (), f part, w)

instance {σ : Type} : MonadLift Action (Stage σ) where
  monadLift := ofTask

/-- A stage on a field of the part. -/
def onField {σ τ α : Type} (field : σ → τ) (put : τ → σ → σ) (stage : Stage τ α) : Stage σ α :=
  ofResult fun part w =>
    let (answer, inner, w) := stage.result (field part) w
    (answer, put inner part, w)

/-- Runs `stage` on each part in order, up to the first failure; the parts behind it stay as they
were. -/
def eachResult {σ α : Type} (stage : Stage σ α) :
    List σ → Workspace → Except Failure (List α) × List σ × Workspace
  | [], w => (.ok [], [], w)
  | part :: rest, w =>
    match stage.result part w with
    | (.error e, part, w) => (.error e, part :: rest, w)
    | (.ok a, part, w) =>
      let (answers, rest, w) := eachResult stage rest w
      (answers.map (a :: ·), part :: rest, w)

/-- Runs `stage` on each part in order, up to the first failure. -/
def each {σ α : Type} (stage : Stage σ α) : Stage (List σ) (List α) :=
  ofResult (eachResult stage)

end Stage

end NativeFreeze
