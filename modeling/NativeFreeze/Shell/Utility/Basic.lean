import NativeFreeze.Shell.Machine

/-!
# Utilities

What the programs of the system have in common: each is a run that leaves its status in the machine.
-/

namespace NativeFreeze.Shell.Utility

/-- A program of the system, run with some arguments. -/
abbrev Behaviour := List Text → Run Unit

/-- Runs `step` on each argument; the status tells whether all went well. -/
def onEach (program : Text) (step : Text → Run (Except FileError Unit)) : Behaviour
  | [] => Run.status 0
  | a :: rest => do
    match ← step a with
    | .ok () => onEach program step rest
    | .error e =>
      let wording := e.message.toList
      let short := ((Text.cutBefore? " (os error".toList wording).map (·.1)).getD wording
      Run.complain (program ++ ": ".toList ++ a ++ ": ".toList ++ short)
      onEach program step rest
      Run.status 1

/-- Changes the file tree, unless the change is refused. -/
def change (operation : FileTree → Except FileError FileTree) : Run (Except FileError Unit) := do
  let m ← get
  match operation m.files with
  | .ok files =>
    set { m with files }
    return .ok ()
  | .error e => return .error e

/-- The options and the other arguments of a utility. -/
def options (arguments : List Text) : List Text × List Text :=
  arguments.partition fun a => a.length > 1 && a.head? = some '-'

/-- Whether one of the options has the letter `c`. -/
def given (c : Char) (options : List Text) : Bool :=
  options.any (·.contains c)

/-- The text with a line break. -/
def line (s : Text) : Bytes :=
  Text.bytes (s ++ ['\n'])

end NativeFreeze.Shell.Utility
