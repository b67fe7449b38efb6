import NativeFreeze.Layout.Basic
import NativeFreeze.Tool.Toolchain

/-!
# What nodes are built with

Nodes read no global state: the layout of the host, the output directories, the tools and the search
paths all come from a build context. The files that a build produced are remembered in the workspace
until they are cleaned up.
-/

namespace NativeFreeze

/-- The directories below the root of a build. -/
structure BuildDirs where
  /-- Where objects go. -/
  temp : Path
  /-- Where libraries, executables, data and bundles go. -/
  output : Path
  deriving DecidableEq, Repr

/-- The directories below `base`. -/
def BuildDirs.below (base : Path) : BuildDirs where
  temp := (base.child "temp".toList).child "Release".toList
  output := base.child "lib".toList

/-- What nodes are built with. -/
structure BuildContext where
  around : Surroundings
  layout : Layout
  dirs : BuildDirs
  transpiler : Transpiler
  toolchain : Toolchain
  /-- Directories searched for headers, after the host's own. -/
  includeDirs : List Path := []
  /-- Directories searched for libraries, after the host's own. -/
  libraryDirs : List Path := []
  /-- How long a traced script may run, in milliseconds. -/
  traceWindow : Nat := 3000

namespace BuildContext

/-- How a node with these directories is compiled: the host's directory comes first, then those of
the context, then the node's. -/
def compileOptions (c : BuildContext) (includeDirs : List Path) : CompileOptions where
  includeDirs := c.layout.includeDir :: c.includeDirs ++ includeDirs
  outputDir := c.dirs.temp

/-- How a node with these directories is linked. -/
def linkOptions (c : BuildContext) (libraryDirs : List Path) (exportSymbols : List Text) :
    LinkOptions where
  libraryDirs := c.layout.libraryDirs ++ c.libraryDirs ++ libraryDirs
  libraries := c.layout.linkLibrary.toList
  exportSymbols := exportSymbols

/-- Compiles sources, remembers the objects, and links them. -/
def compileAndLink (c : BuildContext) (sources : List Path) (compile : CompileOptions)
    (kind : LinkKind) (output : Path) (link : LinkOptions) : Action Unit := do
  Action.request (.compile sources compile)
  let objects ← c.toolchain.compile sources compile
  objects.forM Action.record
  Action.request (.link kind objects output link)
  c.toolchain.link kind objects output link

end BuildContext

/-- Removes an artifact that is still a file. -/
def removeArtifact (p : Path) : Action Unit := do
  if (← Action.files).isFile p then
    Action.note .info .cleanup ("Remove ".toList ++ p.text)
    Action.change (some (.removing p)) (·.remove p)

/-- Removes the artifacts remembered so far, up to the first that cannot be removed, and forgets
them all. -/
def cleanArtifacts : Action Unit := do
  let artifacts := (← get).artifacts
  modify fun w => { w with artifacts := [] }
  artifacts.forM removeArtifact

end NativeFreeze
