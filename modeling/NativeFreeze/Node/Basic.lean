import NativeFreeze.Node.Executable

/-!
# Build nodes

A node owns its units for one build and drives them through transpiling, freezing, compiling and
linking. Nodes are processed one after the other, up to the first failure.
-/

namespace NativeFreeze

/-- A thing to be built. -/
inductive Node
  | module (module : ModuleNode)
  | package (package : PackageNode)
  | executable (executable : ExecutableNode)
  | data (data : DataNode)
  deriving DecidableEq, Repr

namespace Node

/-- The name of a node. -/
def name : Node → Text
  | module m => m.name
  | package p => p.module.name
  | executable e => e.name
  | data _ => "data".toList

/-- The files that a node writes beside its sources, known without building it. -/
def generatedFiles : Node → List Path
  | module m => m.generatedFiles
  | package p => p.module.generatedFiles
  | executable e => e.generatedFiles
  | data _ => []

/-- Builds a node. -/
def process (c : BuildContext) : Stage Node Unit :=
  Stage.ofResult fun node w =>
    match node with
    | .module m =>
      let (answer, m, w) := (ModuleNode.process c).result m w
      (answer, .module m, w)
    | .package p =>
      let (answer, p, w) := (PackageNode.process c).result p w
      (answer, .package p, w)
    | .executable e =>
      let (answer, e, w) := (ExecutableNode.process c).result e w
      (answer, .executable e, w)
    | .data d =>
      let (answer, w) := (d.process c).result w
      (answer.map fun _ => (), .data d, w)

/-- Builds a node and, if asked to, removes what it left beside the sources. -/
def processAndClean (c : BuildContext) (clean : Bool) : Stage Node Unit := do
  process c
  if clean then
    cleanArtifacts

/-- Builds nodes in order, up to the first failure. -/
def processAll (c : BuildContext) (clean : Bool) : Stage (List Node) Unit := do
  let _ ← Stage.each (processAndClean c clean)

end Node

end NativeFreeze
