import NativeFreeze.Failure
import NativeFreeze.Generated.Bootstrap

/-!
# Executable registration

The values of the bootstrap's slots: every linked module is declared and listed, the main unit
first. A source takes one bootstrap only, since a second one would define `main` again.
-/

namespace NativeFreeze

/-- The file name of the archive in a runtime directory. -/
def archiveName : Text := "python.zip".toList

/-- The runtime directory of an executable that sets none. -/
def defaultRuntimeDir : Text := "bin".toList

/-- A linked module: the name under which it is imported and the one it was transpiled under. -/
structure RegisteredModule where
  name : Text
  symbol : Text
  deriving DecidableEq, Repr

/-- What the bootstrap of an executable registers. -/
structure Registration where
  main : RegisteredModule
  modules : List RegisteredModule
  /-- Whether the runtime is bundled instead of the installed one. -/
  standalone : Bool
  runtimeDir : Option Text
  deriving DecidableEq, Repr

namespace Registration

/-- All registered modules, the main one first. -/
def registered (r : Registration) : List RegisteredModule :=
  r.main :: r.modules

/-- The declarations of the init functions. -/
def declarations (r : Registration) : Text :=
  r.registered.flatMap fun m =>
    "PyMODINIT_FUNC CYFREEZE_MODINIT(".toList ++ m.symbol ++ ") (void);\n".toList

/-- The rows of the table from names to init functions. -/
def table (r : Registration) : Text :=
  r.registered.flatMap fun m =>
    "    \x7b\"".toList ++ m.name ++ "\", CYFREEZE_MODINIT(".toList ++ m.symbol ++
      ")\x7d,\n".toList

/-- The value of a slot. -/
def value (r : Registration) : Bootstrap.Slot → Text
  | .declarations => r.declarations
  | .table => r.table
  | .runtimeInit =>
    if r.standalone then "InitPythonStandalone(argc, argv);".toList
    else "InitPythonGlobal(argc, argv);".toList
  | .runtimeDir => r.runtimeDir.getD defaultRuntimeDir
  | .archive => archiveName
  | .mainSymbol => r.main.symbol
  | .mainName => r.main.name

/-- The bootstrap. -/
def render (r : Registration) : Text :=
  Bootstrap.fill r.value

/-- The source of the main unit with its bootstrap; `file` is where it stands. -/
def append (r : Registration) (code : Text) (file : Path) : Except Failure Text :=
  if Text.holds Bootstrap.marker code then .error ⟨.alreadyExecutableFrozen file, none⟩
  else .ok (code ++ "\n\n\n".toList ++ r.render)

end Registration

end NativeFreeze
