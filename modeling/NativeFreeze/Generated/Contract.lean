import NativeFreeze.Failure

/-!
# What generated source promises

The transpiler turns a script into native source that implements the init convention of extension
modules. Freezing relies on a few markers in that source. Checking them first makes a transpiler
that changed its templates an immediate failure. This module also fixes the names under which units
are transpiled.
-/

namespace NativeFreeze

/-- The markers that generated source has to hold. -/
structure SourceContract where
  /-- The statement that derives the package of a module from its loader. -/
  packageMarker : Text
  /-- The statement that derives the search path of a package from its loader. -/
  pathMarker : Text
  /-- The comment that opens the execution section. -/
  executionMarker : Text
  /-- What ends a block; the first one behind the execution marker counts. -/
  blockEnd : Text
  /-- The variable that holds the module object. -/
  moduleObject : Text
  deriving DecidableEq, Repr

namespace SourceContract

/-- The markers of the source that Cython writes. -/
def cython : SourceContract where
  packageMarker := ("if (unlikely(__Pyx_copy_spec_to_module(spec, moddict, \"parent\", " ++
    "\"__package__\", 1) < 0)) goto bad;").toList
  pathMarker := ("if (unlikely(__Pyx_copy_spec_to_module(spec, moddict, " ++
    "\"submodule_search_locations\", \"__path__\", 0) < 0)) goto bad;").toList
  executionMarker := "/*--- Execution code ---*/".toList
  blockEnd := "#endif".toList
  moduleObject := "__pyx_m".toList

/-- The markers that are looked for before anything is changed, in order. -/
def required (c : SourceContract) : List Text :=
  [c.packageMarker, c.pathMarker, c.executionMarker]

/-- Refuses a source that lacks a required marker; `file` is where it stands. -/
def check (c : SourceContract) (code : Text) (file : Path) : Except Failure Unit :=
  match c.required.find? fun marker => !Text.holds marker code with
  | some marker => .error ⟨.templateDrift file marker, none⟩
  | none => .ok ()

end SourceContract

/-- What every native init function is called by in front of its module name. -/
def initPrefix : Text := "PyInit_".toList

/-- The init function of a module transpiled under a name. -/
def initSymbol (symbol : Text) : Text :=
  initPrefix ++ symbol

/-- The name under which a unit is transpiled. Units of a package take their whole name, with `_` in
the place of each dot, so that several of them can share a library; other units take its last
segment. -/
def moduleSymbol (name : Text) (package : Bool) : Text :=
  if package then name.map fun c => if c = '.' then '_' else c
  else (Text.split '.' name).getLast?.getD name

end NativeFreeze
