import NativeFreeze.Shell.Run

/-!
# Launching tools

Commands run as the programs that they name. A limit on the time cuts a run off; it then counts as
killed.
-/

namespace NativeFreeze.Shell

/-- How a run ended, as the system sees it. -/
def exitOf (answer : Except Stop Unit) (m : Machine) : Exit :=
  match answer with
  | .error (.killed signal) => .signal signal
  | .error .cut => .signal 9
  | _ => .code (m.status % 256)

/-- Runs commands among some environment variables. -/
def launcher (bindings : List (Text × Text)) : Launcher := fun command limit files =>
  let directories := (bindings.lookup "PATH".toList).getD "/bin:/usr/bin".toList
  if command.arguments.any (·.contains '\x00') then (.error .badName, files) else
  match Program.find files directories command.program with
  | .error e => (.error e, files)
  | .ok program =>
    let start : Machine :=
      { files, name := [], arguments := [], bindings, exported := bindings.map (·.1), limit }
    let run := runProgram (evaluator depthLimit) command.program program command.arguments
    let (answer, m) := run.result start
    (.ok ⟨exitOf answer m, m.output, m.errors⟩, m.files)

end NativeFreeze.Shell
