import NativeFreeze.Generated.Contract
import NativeFreeze.Generated.Finder

/-!
# Package identity

The init code of a generated module takes its package and search path from a loader. A module
linked into a library has no such loader, so the two statements are replaced by assignments of
literals. The initialiser of a package also gets the package finder, behind the first block end of
its execution section.
-/

namespace NativeFreeze

/-- The literal identity of a frozen module. -/
structure PackageIdentity where
  /-- The last segment of the package. -/
  leaf : Text
  /-- The dotted path of the package. -/
  path : Text
  /-- Whether the package finder is added; only initialisers get it. -/
  injectFinder : Bool
  deriving DecidableEq, Repr

namespace PackageIdentity

/-- The identity of the module `name`. An initialiser stands for its own package, another module
belongs to the package of its parents, and a top-level module to none. -/
def ofName? (name : Text) (isInit : Bool) : Option PackageIdentity :=
  let segments := Text.split '.' name
  if isInit then some ⟨segments.getLast?.getD name, name, true⟩
  else
    segments.dropLast.getLast?.map fun leaf => ⟨leaf, Text.join ['.'] segments.dropLast, false⟩

/-- The start of the literal assignment of a package, which only a frozen source holds. -/
def packageAssignmentStart : Text :=
  "PyDict_SetItemString(moddict, \"__package__\"".toList

/-- The statement that assigns the package. -/
def packageAssignment (leaf : Text) : Text :=
  "if (".toList ++ packageAssignmentStart ++ ", PyUnicode_FromString(\"".toList ++ leaf ++
    "\")) < 0) goto bad;".toList

/-- The statement that assigns the search path. -/
def pathAssignment (path : Text) : Text :=
  "if (PyDict_SetItemString(moddict, \"__path__\", PyUnicode_FromString(\"".toList ++ path ++
    "\")) < 0) goto bad;".toList

/-- The source with the two statements replaced. -/
def assign (identity : PackageIdentity) (contract : SourceContract) (code : Text) : Text :=
  Text.replace contract.pathMarker (pathAssignment identity.path)
    (Text.replace contract.packageMarker (packageAssignment identity.leaf) code)

/-- A text cut behind the first line break at or after `piece`, searched from the start. The marker
that is missing is named if there is no such place. -/
def cutBehindLineOf (piece : Text) (s : Text) : Except Text (Text × Text) :=
  match Text.cutBefore? piece s with
  | none => .error piece
  | some (front, rest) =>
    match Text.cutAt? '\n' rest with
    | none => .error "\\n".toList
    | some (line, rest) => .ok (front ++ line ++ ['\n'], rest)

/-- The place where the finder goes: behind the line of the first block end after the execution
marker. -/
def finderPlace (contract : SourceContract) (code : Text) : Except Text (Text × Text) :=
  match Text.cutBefore? contract.executionMarker code with
  | none => .error contract.executionMarker
  | some (front, rest) =>
    match cutBehindLineOf contract.blockEnd rest with
    | .error marker => .error marker
    | .ok (section_, rest) => .ok (front ++ section_, rest)

/-- The source with the package finder. -/
def addFinder (contract : SourceContract) (code : Text) (file : Path) : Except Failure Text :=
  match finderPlace contract code with
  | .error marker => .error ⟨.templateDrift file marker, none⟩
  | .ok (front, rest) => .ok (front ++ Finder.snippet contract.moduleObject ++ rest)

/-- The source of a module with its identity frozen; `file` is where it stands. -/
def freeze (identity : PackageIdentity) (contract : SourceContract) (code : Text) (file : Path) :
    Except Failure Text := do
  if !Text.holds contract.packageMarker code && Text.holds packageAssignmentStart code then
    throw ⟨.alreadyPackageFrozen file, none⟩
  contract.check code file
  let code := identity.assign contract code
  if identity.injectFinder then addFinder contract code file else pure code

end PackageIdentity

end NativeFreeze
