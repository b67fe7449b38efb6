import NativeFreeze.Node.Context
import NativeFreeze.Unit.Basic

/-!
# Modules and packages

A module node makes one extension library from one or more units. A package node is a module built
as a package whose first unit is the package's initialiser.
-/

namespace NativeFreeze

/-- What a unit contributes to a node: a file to compile or link, and a module to register. -/
structure Contribution where
  source : Option Path := none
  registered : Option RegisteredModule := none
  deriving DecidableEq, Repr

/-- Remembers the generated file of a script unit and answers what the unit contributes. -/
def ScriptUnit.contribute : Stage ScriptUnit Contribution := do
  let u ← Stage.part
  Action.record u.generated
  return ⟨some u.generated, some (← Action.ofExcept u.registered)⟩

/-- Builds a script unit. -/
def ScriptUnit.build (c : BuildContext) (topic : Log.Topic) (package : Bool) :
    Stage ScriptUnit Contribution := do
  Action.note .info topic ("Transpile ".toList ++ (← Stage.part).inputPath.text)
  transpile c.transpiler (some package)
  if package then
    freezePackage c.transpiler.contract
  contribute

/-- Generates a descriptor that has to be generated. -/
def DescriptorUnit.build (u : DescriptorUnit) : Action Contribution := do
  u.generate
  if u.isGenerated then
    Action.record u.path
  return ⟨some u.path, none⟩

/-- Builds a unit of a node. -/
def BuildUnit.build (c : BuildContext) (topic : Log.Topic) (package : Bool) :
    Stage BuildUnit Contribution :=
  Stage.ofResult fun unit w =>
    match unit with
    | .script u =>
      let (answer, u, w) := (ScriptUnit.build c topic package).result u w
      (answer, .script u, w)
    | .native u =>
      (.ok ⟨some u.sourcePath, if isHeader u.sourcePath then none else some u.registered⟩,
        .native u, w)
    | .descriptor u =>
      let (answer, w) := u.build.result w
      (answer, .descriptor u, w)
    | .data u =>
      let (answer, w) := (u.cloneInto c.dirs.output).result w
      (answer.map fun _ => {}, .data u, w)

/-- One extension library. -/
structure ModuleNode where
  name : Text
  units : List BuildUnit
  /-- Whether the units are built as parts of a package. -/
  package : Bool
  includeDirs : List Path := []
  libraryDirs : List Path := []
  deriving DecidableEq, Repr

namespace ModuleNode

/-- The module of some units. A package takes the name of its first named unit, another module the
full name. -/
def ofUnits (units : List BuildUnit) (package : Bool) : Except Failure ModuleNode :=
  match units.findSome? BuildUnit.named? with
  | none => .error ⟨.emptyModule, none⟩
  | some first => .ok ⟨if package then first.name else first.fullName, units, package, [], []⟩

/-- The module of the units that some patterns stand for. -/
def ofPatterns (patterns : List Path) (home : Option Path) (package : Bool) :
    Action ModuleNode := do
  Action.ofExcept (ofUnits (← BuildUnit.ofPatterns patterns home) package)

/-- The files that the build writes beside the sources. -/
def generatedFiles (m : ModuleNode) : List Path :=
  m.units.filterMap BuildUnit.generatedFile?

/-- The segment of a dotted name that is exported: the last one, or the one before an
initialiser. -/
def exportedSegment (name : Text) : Text :=
  let segments := Text.split '.' name
  let last := segments.getLast?.getD name
  if last = initSegment then segments.dropLast.getLast?.getD last else last

/-- The init function that the library must export. -/
def exportSymbol (m : ModuleNode) : Text :=
  initSymbol (exportedSegment m.name)

/-- The library: the segments of the name become directories, the last one the file. -/
def outputPath (m : ModuleNode) (outputDir : Path) (extSuffix : Text) : Path :=
  let segments := Text.split '.' m.name
  (segments.dropLast.foldl Path.child outputDir).child
    (segments.getLast?.getD m.name ++ extSuffix)

/-- Builds the units of a module and answers the files to compile. -/
def buildUnits (c : BuildContext) (package : Bool) : Stage (List BuildUnit) (List Path) := do
  return (← Stage.each (BuildUnit.build c .module package)).filterMap Contribution.source

/-- Builds a module. -/
def process (c : BuildContext) : Stage ModuleNode Unit := do
  let m ← Stage.part
  Action.note .info .module ("Building module ".toList ++ m.name)
  let sources ← Stage.onField units (fun units m => { m with units := units })
    (buildUnits c m.package)
  c.compileAndLink sources (c.compileOptions m.includeDirs) .shared
    (m.outputPath c.dirs.output c.layout.extSuffix)
    (c.linkOptions m.libraryDirs [m.exportSymbol])

end ModuleNode

/-- A module built as a package. Its first unit is the initialiser. -/
structure PackageNode where
  module : ModuleNode
  deriving DecidableEq, Repr

namespace PackageNode

/-- Whether a unit initialises a package. -/
def isInit (u : BuildUnit) : Bool :=
  u.named?.any NamedSource.isPackageInit

/-- The units with the first initialiser moved to the front. -/
def initFirst? : List BuildUnit → Option (BuildUnit × List BuildUnit)
  | [] => none
  | u :: rest =>
    if isInit u then some (u, rest)
    else (initFirst? rest).map fun (init, others) => (init, u :: others)

/-- The package that the first named unit would belong to. -/
def expectedName (units : List BuildUnit) : Text :=
  match units.findSome? BuildUnit.named? with
  | none => []
  | some first => Text.join ['.'] (Text.split '.' first.name).dropLast

/-- The package of some units, one of which has to be an initialiser. -/
def ofUnits (units : List BuildUnit) : Except Failure PackageNode :=
  match initFirst? units with
  | none => .error ⟨.missingPackageInit (expectedName units), none⟩
  | some (init, others) => PackageNode.mk <$> ModuleNode.ofUnits (init :: others) true

/-- The package of the units that some patterns stand for. -/
def ofPatterns (patterns : List Path) (home : Option Path) : Action PackageNode := do
  Action.ofExcept (ofUnits (← BuildUnit.ofPatterns patterns home))

/-- Builds a package. -/
def process (c : BuildContext) : Stage PackageNode Unit :=
  Stage.onField module (fun m _ => ⟨m⟩) (ModuleNode.process c)

end PackageNode

end NativeFreeze
