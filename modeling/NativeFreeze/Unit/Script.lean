import NativeFreeze.Generated.Identity
import NativeFreeze.Generated.Registration
import NativeFreeze.Source.Basic
import NativeFreeze.Tool.Transpiler

/-!
# Script units

A script unit is a source that goes through the transpiler. It is transpiled once; after that its
generated source can be given a package identity and, for the main unit of an executable, the
bootstrap. Each freeze happens at most once and only in this order.
-/

namespace NativeFreeze

/-- How far a unit has come. -/
inductive UnitState
  | created
  | transpiled
  | packageFrozen
  | executableFrozen
  deriving DecidableEq, Repr

/-- Whether a unit has generated source. -/
def UnitState.isTranspiled : UnitState → Bool
  | created => false
  | _ => true

/-- A source that goes through the transpiler. -/
structure ScriptUnit where
  named : NamedSource
  /-- The native source that the transpiler writes. -/
  generated : Path
  state : UnitState := .created
  /-- Whether the unit is built as part of a package. -/
  package : Bool := false
  /-- The name that the unit was transpiled under. -/
  symbol : Option Text := none
  deriving DecidableEq, Repr

namespace ScriptUnit

/-- The suffix of the native source that the transpiler writes. -/
def generatedSuffix : Text := ".cpp".toList

/-- The unit of a script or intermediate source. -/
def ofPath (input : Path) (home : Option Path) : Except Failure ScriptUnit := do
  let kind := match SourceKind.ofPath? input with
    | some .intermediate => SourceKind.intermediate
    | _ => .script
  let source ← Source.ofKind kind input home
  return { named := .of source, generated := source.path.withSuffix generatedSuffix }

/-- The name under which a unit is imported. -/
def name (u : ScriptUnit) : Text :=
  u.named.name

/-- The source of a unit. -/
def inputPath (u : ScriptUnit) : Path :=
  u.named.path

/-- The registration of a transpiled unit. -/
def registered (u : ScriptUnit) : Except Failure RegisteredModule :=
  match u.symbol with
  | some symbol => .ok ⟨u.name, symbol⟩
  | none => .error ⟨.notTranspiled u.inputPath, none⟩

/-- Transpiles a unit, unless that was done before. A package flag that is given takes the place of
the unit's own. -/
def transpile (tool : Transpiler) (package : Option Bool) : Stage ScriptUnit Unit := do
  if (← Stage.part).state.isTranspiled then
    return
  Stage.update fun u => { u with package := package.getD u.package }
  let u ← Stage.part
  let symbol := moduleSymbol u.name u.package
  let request : TranspileRequest := ⟨u.inputPath, u.generated, symbol⟩
  Action.request (.transpile request)
  tool.run request
  Stage.update fun u => { u with symbol := some symbol, state := .transpiled }

/-- The generated source of a unit. -/
def readGenerated (u : ScriptUnit) : Action Text :=
  Action.ask (some (.reading u.generated)) (·.readText u.generated)

/-- Replaces the generated source of a unit. -/
def writeGenerated (u : ScriptUnit) (code : Text) : Action Unit :=
  Action.change (some (.writing u.generated)) (·.write u.generated (.plain code.bytes))

/-- Refuses a unit that cannot be frozen in a package. -/
def checkFreezePackage (u : ScriptUnit) : Except Failure Unit :=
  match u.state with
  | .created => .error ⟨.notTranspiled u.inputPath, none⟩
  | .packageFrozen => .error ⟨.alreadyPackageFrozen u.generated, none⟩
  | .executableFrozen => .error ⟨.alreadyExecutableFrozen u.generated, none⟩
  | .transpiled => if u.package then .ok () else .error ⟨.notPackageBuild u.inputPath, none⟩

/-- The identity that a unit is frozen with; a top-level module has none. -/
def identity? (u : ScriptUnit) : Option PackageIdentity :=
  PackageIdentity.ofName? u.name u.named.isPackageInit

/-- Gives a unit its package identity. The source of a top-level module stays as it is. -/
def freezePackage (contract : SourceContract) : Stage ScriptUnit Unit := do
  let u ← Stage.part
  Action.ofExcept u.checkFreezePackage
  match u.identity? with
  | some identity =>
    let code ← u.readGenerated
    u.writeGenerated (← Action.ofExcept (identity.freeze contract code u.generated))
  | none => pure ()
  Stage.update fun u => { u with state := .packageFrozen }

/-- Refuses a unit that cannot take the bootstrap. -/
def checkFreezeExecutable (u : ScriptUnit) : Except Failure Unit :=
  match u.state with
  | .created => .error ⟨.notTranspiled u.inputPath, none⟩
  | .executableFrozen => .error ⟨.alreadyExecutableFrozen u.generated, none⟩
  | .transpiled | .packageFrozen => .ok ()

/-- Appends the bootstrap that registers `modules` after this unit. -/
def freezeExecutable (modules : List RegisteredModule) (standalone : Bool)
    (runtimeDir : Option Text) : Stage ScriptUnit Unit := do
  let u ← Stage.part
  Action.ofExcept u.checkFreezeExecutable
  let registration : Registration :=
    ⟨← Action.ofExcept u.registered, modules, standalone, runtimeDir⟩
  let code ← u.readGenerated
  u.writeGenerated (← Action.ofExcept (registration.append code u.generated))
  Stage.update fun u => { u with state := .executableFrozen }

end ScriptUnit

end NativeFreeze
