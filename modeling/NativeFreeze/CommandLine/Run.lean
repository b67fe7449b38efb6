import NativeFreeze.Bundle.Pack
import NativeFreeze.CommandLine.Arguments
import NativeFreeze.CommandLine.Filter
import NativeFreeze.Settings.Basic

/-!
# Tasks of the command line

Each task is an action on a workspace. `run` reads the arguments, performs the task, and keeps the
records of the log that the filter admits. A failure is logged as an error.
-/

namespace NativeFreeze.CommandLine

/-- The settings, those of the command line on top. -/
def settings (around : Surroundings) (options : Options) : Action Settings := do
  let s ← Settings.load around options.config
  return { s with
    buildDir := options.buildDir.getD s.buildDir
    python := options.python.getD s.python }

/-- Builds the nodes of a manifest. -/
def build (around : Surroundings) (s : Settings) (manifest : Path) (clean : Bool) :
    Action Unit := do
  let m ← Manifest.load manifest
  let nodes ← m.nodes
  let c := s.context around (← s.hostLayout around)
  let (answer, _, w) := (Node.processAll c (clean || m.clean)).result nodes (← get)
  set w
  Action.ofExcept answer
  Action.note .info .command ("Built ".toList ++ Text.ofNat nodes.length ++
    " node(s) into ".toList ++ c.dirs.output.text)

/-- Removes the files that are there, and answers how many there were. -/
def removeFiles : List Path → Action Nat
  | [] => return 0
  | p :: rest => do
    if (← Action.files).isFile p then
      Action.change (some (.removing p)) (·.remove p)
      return (← removeFiles rest) + 1
    else removeFiles rest

/-- Removes the generated sources of a manifest and the directory of the objects. -/
def clean (s : Settings) (manifest : Path) : Action Unit := do
  let m ← Manifest.load manifest
  let removed ← removeFiles ((← m.nodes).flatMap Node.generatedFiles)
  let temp := s.dirs.temp
  if (← Action.files).isDirectory temp then
    Action.change (some (.removing temp)) (·.removeAll temp)
  Action.note .info .command ("Removed ".toList ++ Text.ofNat removed ++
    " generated source(s) and ".toList ++ temp.text)

/-- The files that a script needs from the installation. -/
def dependencies (around : Surroundings) (s : Settings) (script : Path) :
    Action (Layout × List Path) := do
  let layout ← s.hostLayout around
  return (layout, ← Trace.dependencies around layout (1000 * s.traceSeconds) script)

/-- Prints the files that a script needs, one on a line. -/
def trace (around : Surroundings) (s : Settings) (script : Path) : Action Unit := do
  let (_, paths) ← dependencies around s script
  Action.print (paths.flatMap fun p => Text.bytes (p.text ++ ['\n']))

/-- Packs the files that a script needs into a directory. -/
def bundle (around : Surroundings) (s : Settings) (script outDir : Path) : Action Unit := do
  let (layout, paths) ← dependencies around s script
  let packed ← Bundle.pack layout paths outDir
  Action.note .info .command ("Bundled ".toList ++ packed.archive.text ++ " with ".toList ++
    Text.ofNat packed.native.length ++ " native module(s)".toList)

/-- Performs a task. -/
def perform (around : Surroundings) (options : Options) (task : Task) : Action Unit := do
  let s ← settings around options
  match task with
  | .build manifest clean => build around s manifest clean
  | .clean manifest => clean s manifest
  | .trace script => trace around s script
  | .bundle script outDir => bundle around s script outDir

/-- What a run of the command line leaves. -/
structure Outcome where
  exit : Nat
  output : Bytes
  log : List Log.Record
  files : FileTree

/-- The name and version that `--version` prints. -/
def versionLine : Text :=
  "cyfreeze 0.1.0\n".toList

/-- What `--help` prints. -/
def helpText : Text :=
  ("Freeze Cython-transpiled Python into native libraries and executables\n\n" ++
    "Usage: cyfreeze [OPTIONS] <COMMAND>\n\n" ++
    "Commands:\n" ++
    "  build [-m <MANIFEST>] [--clean]  Build every node listed in a manifest\n" ++
    "  clean [-m <MANIFEST>]            Remove generated sources and object files\n" ++
    "  trace <SCRIPT>                   Print the files a script loads\n" ++
    "  bundle <SCRIPT> <OUT_DIR>        Pack what a script loads into a runtime bundle\n\n" ++
    "Options:\n" ++
    "  -v, --verbose                    Increase log verbosity\n" ++
    "      --config <CONFIG>            Project config file\n" ++
    "      --build-dir <BUILD_DIR>      Root of all build outputs\n" ++
    "      --python <PYTHON>            Host interpreter\n" ++
    "  -h, --help                       Print help\n" ++
    "  -V, --version                    Print version\n").toList

/-- The filter of the log: the one in the environment, or else the one that was asked for. -/
def filter (around : Surroundings) (options : Options) : Log.Filter :=
  match around.valueOf? "RUST_LOG".toList with
  | some s => Log.Filter.ofText s
  | none => Log.Filter.ofVerbosity options.verbosity

/-- Runs the command line on a file tree. -/
def run (around : Surroundings) (files : FileTree) (arguments : List Text) : Outcome :=
  match Invocation.ofArguments arguments with
  | .version => ⟨0, versionLine.bytes, [], files⟩
  | .help => ⟨0, helpText.bytes, [], files⟩
  | .refused => ⟨2, [], [], files⟩
  | .run options task =>
    let admitted := fun (log : List Log.Record) => log.filter (filter around options).admits
    match (perform around options task).result { files } with
    | (.ok (), w) => ⟨0, w.output, admitted w.log, w.files⟩
    | (.error e, w) =>
      ⟨1, w.output, admitted (w.log ++ [⟨.error, .command, e.report⟩]), w.files⟩

end NativeFreeze.CommandLine
