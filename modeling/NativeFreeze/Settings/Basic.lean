import NativeFreeze.Layout.Probe
import NativeFreeze.Node.Context
import NativeFreeze.Toml.Document
import NativeFreeze.Toml.Records

/-!
# Settings

Settings are layered, later sources winning: the defaults, the user's file, the project's file, and
environment variables. Search paths of the files add up. An explicit project file has to be there;
without one, the file in the working directory is used if it is there.
-/

namespace NativeFreeze

/-- The settings of a build. -/
structure Settings where
  /-- The root of all outputs. -/
  buildDir : Path := ⟨"build".toList⟩
  /-- The interpreter that is probed for the layout. -/
  python : Path := ⟨"python3".toList⟩
  compiler : Text := "c++".toList
  includeDirs : List Path := []
  libraryDirs : List Path := []
  /-- How long a traced script may run, in seconds. -/
  traceSeconds : Nat := 3
  /-- The layout of the host, if it is not to be probed. -/
  layout : Option Layout := none
  deriving DecidableEq, Repr

namespace Settings

/-- The name of the user's and of the project's file. -/
def fileName : Text := "cyfreeze.toml".toList

/-- What one file sets. -/
structure Layer where
  buildDir : Option Path
  python : Option Path
  compiler : Option Text
  includeDirs : List Path
  libraryDirs : List Path
  traceSeconds : Option Nat
  layout : Option Layout
  deriving DecidableEq, Repr

/-- The names of the keys of a file. -/
def fieldNames : List String :=
  ["build_dir", "python", "compiler", "include_dirs", "library_dirs", "trace_timeout_secs", "host"]

/-- The layer that a document describes. -/
def Layer.ofValue? (v : Toml.Value) : Option Layer := do
  let es ← v.fields? fieldNames false
  return {
    buildDir := ← es.optional "build_dir" Toml.Value.path?
    python := ← es.optional "python" Toml.Value.path?
    compiler := ← es.optional "compiler" Toml.Value.text?
    includeDirs := ← es.withDefault "include_dirs" Toml.Value.paths? []
    libraryDirs := ← es.withDefault "library_dirs" Toml.Value.paths? []
    traceSeconds := ← es.optional "trace_timeout_secs" (Toml.Value.below? UInt64.size)
    layout := ← es.optional "host" Layout.ofValue? }

/-- The settings with a layer on top. -/
def merge (s : Settings) (l : Layer) : Settings where
  buildDir := l.buildDir.getD s.buildDir
  python := l.python.getD s.python
  compiler := l.compiler.getD s.compiler
  includeDirs := s.includeDirs ++ l.includeDirs
  libraryDirs := s.libraryDirs ++ l.libraryDirs
  traceSeconds := l.traceSeconds.getD s.traceSeconds
  layout := l.layout.or s.layout

/-- The settings with the variables that are set on top. -/
def override (s : Settings) (valueOf? : Text → Option Text) : Settings :=
  { s with
    python := ((valueOf? "CYFREEZE_PYTHON".toList).map Path.mk).getD s.python
    buildDir := ((valueOf? "CYFREEZE_BUILD_DIR".toList).map Path.mk).getD s.buildDir
    compiler := (valueOf? "CYFREEZE_COMPILER".toList).getD s.compiler }

/-- The settings with those of a file on top. -/
def mergeFile (s : Settings) (file : Path) : Action Settings := do
  let text ← Action.ask (some (.readingConfig file)) (·.readText file)
  match (Toml.parse? text).bind Layer.ofValue? with
  | some layer => return s.merge layer
  | none => Action.fail .malformedDocument (some (.parsingConfig file))

/-- The settings with those of a file on top, if the file is there. -/
def mergeFileIfThere (s : Settings) (file : Path) : Action Settings := do
  if (← Action.files).isFile file then s.mergeFile file else return s

/-- The user's configuration directory: the one that is set, if its path is absolute, and the usual
one below the home directory otherwise. -/
def configDir? (valueOf? : Text → Option Text) : Option Path :=
  match (valueOf? "XDG_CONFIG_HOME".toList).map Path.mk |>.filter Path.isAbsolute with
  | some dir => some dir
  | none => (valueOf? "HOME".toList).map fun home => (Path.mk home).child ".config".toList

/-- The user's file. -/
def userFile? (valueOf? : Text → Option Text) : Option Path :=
  (configDir? valueOf?).map fun dir => (dir.child "cyfreeze".toList).child fileName

/-- The layered settings. -/
def load (around : Surroundings) (project : Option Path) : Action Settings := do
  let user ← match userFile? around.valueOf? with
    | some file => mergeFileIfThere {} file
    | none => pure {}
  let s ← match project with
    | some file => user.mergeFile file
    | none => user.mergeFileIfThere ⟨fileName⟩
  return s.override around.valueOf?

/-- The layout of the host: the configured one, or that of the interpreter. -/
def hostLayout (around : Surroundings) (s : Settings) : Action Layout :=
  match s.layout with
  | some layout => pure layout
  | none => Layout.detect around s.python

/-- The output directories. -/
def dirs (s : Settings) : BuildDirs :=
  BuildDirs.below s.buildDir

/-- What nodes are built with under some settings: Cython run by the host's interpreter, and the
compiler that is set. -/
def context (around : Surroundings) (s : Settings) (layout : Layout) : BuildContext where
  around := around
  layout := layout
  dirs := s.dirs
  transpiler := Cython.transpiler around layout.executable
  toolchain := Compiler.toolchain around s.compiler
  includeDirs := s.includeDirs
  libraryDirs := s.libraryDirs
  traceWindow := 1000 * s.traceSeconds

end Settings

end NativeFreeze
