import NativeFreeze.Descriptor
import NativeFreeze.Source.Pattern
import NativeFreeze.Unit.Script

/-!
# Build units

The files that a node is built from: scripts, native sources, resource descriptors and data files.
The extension of a path decides which unit it makes.
-/

namespace NativeFreeze

/-- A native source, compiled as it is. -/
structure NativeUnit where
  named : NamedSource
  deriving DecidableEq, Repr

namespace NativeUnit

/-- The unit of a native source. -/
def ofPath (input : Path) (home : Option Path) : Except Failure NativeUnit := do
  return ⟨.of (← Source.ofKind .native input home)⟩

/-- The file that is compiled. -/
def sourcePath (u : NativeUnit) : Path :=
  u.named.path

/-- The registration of a hand-written extension, which is named like a unit of a package. -/
def registered (u : NativeUnit) : RegisteredModule :=
  ⟨u.named.name, moduleSymbol u.named.name true⟩

end NativeUnit

/-- A resource descriptor: a file that is there, or one to be generated. -/
structure DescriptorUnit where
  path : Path
  config : Option Descriptor
  deriving DecidableEq, Repr

namespace DescriptorUnit

/-- A descriptor that is generated at build time. -/
def generated (output : Path) (config : Descriptor) : Except Failure DescriptorUnit := do
  return ⟨(← Source.ofKind .descriptor output none).path, some config⟩

/-- A descriptor that is there. -/
def existing (input : Path) (home : Option Path) : Except Failure DescriptorUnit := do
  return ⟨(← Source.ofKind .descriptor input home).path, none⟩

/-- Whether the build writes the descriptor. -/
def isGenerated (u : DescriptorUnit) : Bool :=
  u.config.isSome

/-- Writes a descriptor that is to be generated. -/
def generate (u : DescriptorUnit) : Action Unit :=
  match u.config with
  | none => pure ()
  | some config => do
    Action.note .info .unit ("Generate ".toList ++ u.path.text)
    Action.makeParent (fun _ => none) u.path
    Action.change (some (.writing u.path)) (·.write u.path (.plain config.render.bytes))

end DescriptorUnit

/-- A file that is copied to the output as it is. -/
structure DataUnit where
  source : Source
  deriving DecidableEq, Repr

namespace DataUnit

/-- The unit of a file, which has to be there. -/
def ofPath (input : Path) (home : Option Path) : Action DataUnit := do
  let source := Source.resolve input home
  if (← Action.files).isThere source.path then return ⟨source⟩
  else Action.fail (.dataSourceMissing source.path)

/-- The units of all files that a pattern stands for. -/
def ofPattern (pattern : Path) (home : Option Path) : Action (List DataUnit) := do
  (← (Pattern.ofPath pattern).expand home).mapM fun p => ofPath p home

/-- Copies the file below an output directory, to the path that it was given by. -/
def cloneInto (u : DataUnit) (outputRoot : Path) : Action Path := do
  Action.note .info .unit ("Clone data file ".toList ++ u.source.path.text)
  let target := outputRoot.join u.source.input
  match target.parent? with
  | some above => Action.makeAll (some (.creating above)) above
  | none => pure ()
  Action.change (some (.copying u.source.path target)) (·.copy u.source.path target)
  return target

end DataUnit

/-- A file that a node is built from. -/
inductive BuildUnit
  | script (unit : ScriptUnit)
  | native (unit : NativeUnit)
  | descriptor (unit : DescriptorUnit)
  | data (unit : DataUnit)
  deriving DecidableEq, Repr

namespace BuildUnit

/-- The unit that a path makes by its extension. A file of no known kind makes none: it can only be
used as data. -/
def ofPath? (p : Path) (home : Option Path) : Except Failure (Option BuildUnit) :=
  match SourceKind.ofPath? p with
  | some .script | some .intermediate => some <$> script <$> ScriptUnit.ofPath p home
  | some .native => some <$> native <$> NativeUnit.ofPath p home
  | some .descriptor => some <$> descriptor <$> DescriptorUnit.existing p home
  | none => .ok none

/-- The unit that a path makes; a path that makes none is reported. -/
def ofPath (p : Path) (home : Option Path) : Action (Option BuildUnit) := do
  let unit ← Action.ofExcept (ofPath? p home)
  if unit.isNone then
    Action.note .warn .unit ("Ignoring ".toList ++ p.text ++ ": not a buildable resource".toList)
  return unit

/-- The units of all paths that a pattern stands for. -/
def ofPattern (pattern : Path) (home : Option Path) : Action (List BuildUnit) := do
  (← (Pattern.ofPath pattern).expand home).filterMapM fun p => ofPath p home

/-- The units of some patterns, in their order. -/
def ofPatterns (patterns : List Path) (home : Option Path) : Action (List BuildUnit) := do
  return (← patterns.mapM fun pattern => ofPattern pattern home).flatten

/-- The file that the build writes for a unit. -/
def generatedFile? : BuildUnit → Option Path
  | script u => some u.generated
  | descriptor u => if u.isGenerated then some u.path else none
  | native _ => none
  | data _ => none

/-- The named source of a unit that has a qualified name. -/
def named? : BuildUnit → Option NamedSource
  | script u => some u.named
  | native u => some u.named
  | descriptor _ => none
  | data _ => none

end BuildUnit

end NativeFreeze
