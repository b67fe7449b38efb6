import NativeFreeze.Generated.Contract
import NativeFreeze.Workspace

/-!
# Transpilers

A transpiler writes native source for a script and says what markers that source holds. The one
that is used outside tests runs Cython through an interpreter.
-/

namespace NativeFreeze

/-- A program that writes native source. -/
structure Transpiler where
  /-- The markers of the source it writes. -/
  contract : SourceContract
  /-- Writes the source that a request asks for. -/
  run : TranspileRequest → Action Unit

namespace Action

/-- Starts a tool whose output goes where the build's own goes; unless it ends well, the action
fails with the name of the tool. -/
def runTool (around : Surroundings) (during : Activity) (tool : Text) (command : Command) :
    Action Unit := do
  let run ← launch around during command
  print run.output
  if run.exit.isSuccess then pure () else fail (.toolFailed tool run.exit)

end Action

namespace Cython

/-- The command that transpiles a script. -/
def command (interpreter : Path) (r : TranspileRequest) : Command where
  program := interpreter.text
  arguments :=
    ["-m", "cython", "--cplus", "-3", "-X", "always_allow_keywords=True", "--module-name"].map
        String.toList ++
      [r.moduleName, "-o".toList, r.output.text, r.input.text]

/-- Cython, run through an interpreter. -/
def transpiler (around : Surroundings) (interpreter : Path) : Transpiler where
  contract := .cython
  run r := do
    Action.note .info .transpiler
      ("Transpiling ".toList ++ r.input.text ++ " as '".toList ++ r.moduleName ++ "'".toList)
    Action.runTool around (.launchingCython interpreter) "cython".toList (command interpreter r)

end Cython

end NativeFreeze
