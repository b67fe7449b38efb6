import NativeFreeze.CommandLine.Run
import NativeFreeze.FileTree.Load
import NativeFreeze.Shell.Launch

/-!
# The program

The names of the files of the workspace are read from the standard input, one on a line. Their
contents make the file tree that the command line runs on; what it changed is written back.
-/

namespace NativeFreeze.Program

/-- The names on the input. -/
partial def readNames (input : IO.FS.Stream) : IO (List String) := do
  let line ← input.getLine
  if line.isEmpty then return []
  let name := line.trimAscii.toString
  let rest ← readNames input
  return if name.isEmpty then rest else name :: rest

/-- The environment variables that are looked at. -/
def variableNames : List String :=
  ["PATH", "HOME", "XDG_CONFIG_HOME", "RUST_LOG", "CYFREEZE_PYTHON", "CYFREEZE_BUILD_DIR",
    "CYFREEZE_COMPILER"]

/-- The environment variables that are set. -/
def readVariables : IO (List (Text × Text)) :=
  variableNames.filterMapM fun name => do
    return (← IO.getEnv name).map fun value => (name.toList, value.toList)

/-- A file as an entry. One that starts as a script counts as a program. -/
def entryOf (bytes : Bytes) : Entry :=
  .file (.plain bytes) ((Text.bytes "#!".toList).isPrefixOf bytes)

/-- The path of a location, as the system takes it. -/
def systemPath (l : Location) : String :=
  String.ofList ('/' :: Text.join ['/'] l)

/-- Writes an entry. Links are left as they are. -/
def writeEntry (l : Location) : Entry → IO Unit
  | .directory => IO.FS.createDirAll (systemPath l)
  | .file content _ => do
    IO.FS.createDirAll (systemPath l.dropLast)
    IO.FS.writeBinFile (systemPath l) ⟨content.bytes.toArray⟩
  | .link _ => pure ()

/-- Removes what was at a location. -/
def removeEntry (before : FileTree) (l : Location) : IO Unit :=
  match before.get? l with
  | some .directory => IO.FS.removeDir (systemPath l)
  | _ => IO.FS.removeFile (systemPath l)

/-- Runs the command line on the workspace. -/
def run (arguments : List String) : IO UInt32 := do
  let base := FileTree.locate [] ⟨((← IO.getEnv "PWD").getD "/").toList⟩
  let names ← readNames (← IO.getStdin)
  let entries ← names.mapM fun name => do
    let l := FileTree.locate base ⟨name.toList⟩
    return (l, entryOf (← IO.FS.readBinFile (systemPath l)).toList)
  let bindings ← readVariables
  let around : Surroundings :=
    { launch := Shell.launcher bindings, valueOf? := fun name => bindings.lookup name }
  let before := FileTree.ofEntries base entries
  let outcome := CommandLine.run around before (arguments.map String.toList)
  for l in (before.removed outcome.files).mergeSort fun a b => b.length ≤ a.length do
    removeEntry before l
  for (l, e) in before.changed outcome.files do
    writeEntry l e
  (← IO.getStdout).write ⟨outcome.output.toArray⟩
  for record in outcome.log do
    (← IO.getStderr).putStr (String.ofList record.line)
  return UInt32.ofNat outcome.exit

end NativeFreeze.Program

/-- Runs the command line. -/
def main (arguments : List String) : IO UInt32 :=
  NativeFreeze.Program.run arguments
