import NativeFreeze.Bundle.Pack
import NativeFreeze.Node.Module
import NativeFreeze.Trace.Capture

/-!
# Data and executables

A data node copies files to the output as they are. An executable node links a main unit and all
other units into one binary, and registers them as built-in modules. A standalone executable gets
the host's runtime libraries beside it and a bundle of what its main script needs.
-/

namespace NativeFreeze

/-- Files copied to the output as they are. -/
structure DataNode where
  units : List DataUnit
  deriving DecidableEq, Repr

namespace DataNode

/-- The files that some patterns stand for; each has to be there. -/
def ofPatterns (patterns : List Path) (home : Option Path) : Action DataNode := do
  return ⟨(← patterns.mapM fun pattern => DataUnit.ofPattern pattern home).flatten⟩

/-- Copies the files, and answers where they went. -/
def process (c : BuildContext) (d : DataNode) : Action (List Path) :=
  d.units.mapM fun u => u.cloneInto c.dirs.output

end DataNode

/-- What an executable is assembled from. -/
inductive ExecutableInput
  | unit (unit : BuildUnit)
  | module (module : ModuleNode)
  | package (package : PackageNode)
  | data (data : DataNode)
  deriving DecidableEq, Repr

/-- A part of an executable. -/
inductive Part
  | unit (unit : BuildUnit)
  | data (data : DataNode)
  deriving DecidableEq, Repr

namespace Part

/-- The parts of an input: modules and packages give their units. -/
def ofInput : ExecutableInput → List Part
  | .unit u => [unit u]
  | .module m => m.units.map unit
  | .package p => p.module.units.map unit
  | .data d => [data d]

/-- The file that the build writes for a part. -/
def generatedFile? : Part → Option Path
  | unit u => u.generatedFile?
  | data _ => none

/-- Builds a part. -/
def build (c : BuildContext) : Stage Part Contribution :=
  Stage.ofResult fun part w =>
    match part with
    | .unit u =>
      let (answer, u, w) := (BuildUnit.build c .executable true).result u w
      (answer, .unit u, w)
    | .data d =>
      let (answer, w) := (d.process c).result w
      (answer.map fun _ => {}, .data d, w)

end Part

/-- A binary. -/
structure ExecutableNode where
  name : Text
  main : BuildUnit
  parts : List Part
  /-- Whether the runtime is bundled. -/
  standalone : Bool := false
  /-- The directory of the bundled runtime, seen from the output directory. -/
  runtimeDir : Option Text := none
  includeDirs : List Path := []
  libraryDirs : List Path := []
  deriving DecidableEq, Repr

namespace ExecutableNode

/-- The executable of a main unit, which has to be a script or a native source, and some inputs. -/
def ofInputs (main : BuildUnit) (inputs : List ExecutableInput) :
    Except Failure ExecutableNode :=
  match main.named? with
  | some named => .ok { name := named.name, main := main, parts := inputs.flatMap Part.ofInput }
  | none => .error ⟨.entryPointKind, none⟩

/-- The directory of the bundled runtime. -/
def runtime (e : ExecutableNode) : Text :=
  e.runtimeDir.getD defaultRuntimeDir

/-- The files that the build writes beside the sources, that of the main unit first. -/
def generatedFiles (e : ExecutableNode) : List Path :=
  e.main.generatedFile?.toList ++ e.parts.filterMap Part.generatedFile?

/-- The binary. -/
def outputPath (e : ExecutableNode) (outputDir : Path) : Path :=
  outputDir.child e.name

/-- Copies a runtime library beside the binary. -/
def copyRuntimeLibrary (h : Layout) (outputDir library : Path) : Action (Option Path) := do
  match library.fileName? with
  | none => return none
  | some name =>
    let source := h.installRoot.join library
    let target := outputDir.child name
    Action.note .info .executable ("Copy runtime library ".toList ++ source.text)
    Action.change (some (.copying source target)) (·.copy source target)
    return some target

/-- Copies the host's runtime libraries beside the binary. -/
def copyRuntimeLibraries (h : Layout) (outputDir : Path) : Action (List Path) := do
  Action.makeAll (some (.creating outputDir)) outputDir
  let libraries ← (Pattern.ofPath h.runtimeLibraryPattern).expand (some h.installRoot)
  libraries.filterMapM (copyRuntimeLibrary h outputDir)

/-- Builds a main unit that is a script, and answers the file to compile and the script. -/
def buildMainScript (c : BuildContext) (modules : List RegisteredModule) (standalone : Bool)
    (runtimeDir : Option Text) : Stage ScriptUnit (Path × Option Path) := do
  Action.note .info .executable ("Transpile ".toList ++ (← Stage.part).inputPath.text)
  ScriptUnit.transpile c.transpiler none
  ScriptUnit.freezeExecutable modules standalone runtimeDir
  let u ← Stage.part
  Action.record u.generated
  return (u.generated, some u.inputPath)

/-- Builds the main unit, which registers the other modules, and answers the file to compile and,
for a script, the script. -/
def buildMain (c : BuildContext) (modules : List RegisteredModule) (standalone : Bool)
    (runtimeDir : Option Text) : Stage BuildUnit (Path × Option Path) :=
  Stage.ofResult fun unit w =>
    match unit with
    | .script u =>
      let (answer, u, w) := (buildMainScript c modules standalone runtimeDir).result u w
      (answer, .script u, w)
    | .native u => (.ok (u.sourcePath, none), .native u, w)
    | other => (.error ⟨.entryPointKind, none⟩, other, w)

/-- What a standalone executable needs from the installation. A native main unit cannot be
traced. -/
def dependencies (c : BuildContext) : Option Path → Action (List Path)
  | some script => Trace.dependencies c.around c.layout c.traceWindow script
  | none => do
    Action.note .warn .executable
      "Native entry point cannot be traced, bundling required files only".toList
    return ImportLog.dependencies c.layout []

/-- Builds the main unit, which registers what the parts contribute. Answers the files to compile,
that of the main unit first, and the main unit's script. -/
def assemble (c : BuildContext) (built : List Contribution) :
    Stage ExecutableNode (List Path × Option Path) := do
  let e ← Stage.part
  let (source, script) ← Stage.onField main (fun main e => { e with main := main })
    (buildMain c (built.filterMap Contribution.registered) e.standalone e.runtimeDir)
  return (source :: built.filterMap Contribution.source, script)

/-- Builds the parts and then the main unit; the runtime libraries are copied in between if the
runtime is bundled. -/
def buildAll (c : BuildContext) : Stage ExecutableNode (List Path × Option Path) := do
  let e ← Stage.part
  Action.note .info .executable ("Building executable ".toList ++ e.name)
  let built ← Stage.onField parts (fun parts e => { e with parts := parts })
    (Stage.each (Part.build c))
  if e.standalone then
    let _ ← copyRuntimeLibraries c.layout c.dirs.output
  assemble c built

/-- Makes the bundle beside a binary whose main script this is. -/
def bundle (c : BuildContext) (script : Option Path) (e : ExecutableNode) : Action Unit := do
  let _ ← Bundle.pack c.layout (← dependencies c script) (c.dirs.output.child e.runtime)

/-- Makes the binary of the compiled files, and the bundle beside it if there is to be one. -/
def link (c : BuildContext) (sources : List Path) (script : Option Path) :
    Stage ExecutableNode Unit := do
  let e ← Stage.part
  c.compileAndLink sources (c.compileOptions e.includeDirs) .executable
    (e.outputPath c.dirs.output) (c.linkOptions e.libraryDirs [])
  if e.standalone then
    e.bundle c script

/-- Builds an executable. -/
def process (c : BuildContext) : Stage ExecutableNode Unit := do
  let (sources, script) ← buildAll c
  link c sources script

end ExecutableNode

end NativeFreeze
