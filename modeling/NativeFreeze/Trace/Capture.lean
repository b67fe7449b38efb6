import NativeFreeze.Trace.ImportLog
import NativeFreeze.Workspace

/-!
# Tracing a script

A script is run under the verbose interpreter for a limited time. What the log mentions until then
are the script's dependencies.
-/

namespace NativeFreeze.Trace

/-- The import log of a script, cut off after `window` milliseconds. -/
def capture (around : Surroundings) (h : Layout) (window : Nat) (script : Path) : Action Text := do
  let run ← Action.launch around (.launching h.executable.text)
    ⟨h.executable.text, ["-v".toList, script.text]⟩ (some window)
  return Utf8.decodeLossy run.errors

/-- The files that a script needs from the installation. -/
def dependencies (around : Surroundings) (h : Layout) (window : Nat) (script : Path) :
    Action (List Path) := do
  Action.note .info .trace ("Tracing dependencies of ".toList ++ script.text)
  return ImportLog.dependencies h (← capture around h window script)

end NativeFreeze.Trace
