import NativeFreeze.Failure

/-!
# Sources

A source is an input file: its path as given, and as seen from a home directory. The extension
decides the kind of a source; the path, read as a list of segments, decides its qualified name.
-/

namespace NativeFreeze

/-- The kinds of sources. -/
inductive SourceKind
  | script
  | intermediate
  | native
  | descriptor
  deriving DecidableEq, Repr

namespace SourceKind

/-- The extensions of a kind, with their leading dots. -/
def suffixes : SourceKind → List Text
  | script => [".py".toList]
  | intermediate => [".pyx".toList, ".pxd".toList]
  | native => [".c".toList, ".h".toList, ".cpp".toList, ".hpp".toList]
  | descriptor => [".rc".toList]

/-- Whether a path has one of the extensions of a kind. -/
def accepts (kind : SourceKind) (p : Path) : Bool :=
  kind.suffixes.contains p.suffix

/-- The kind of the source at a path, if its extension is known. -/
def ofPath? (p : Path) : Option SourceKind :=
  [script, intermediate, native, descriptor].find? fun kind => kind.accepts p

end SourceKind

/-- Whether a path names a header, which is never compiled on its own. -/
def isHeader (p : Path) : Bool :=
  [".h".toList, ".hpp".toList].contains p.suffix

/-- The segment that names the initialiser of a package. -/
def initSegment : Text := "__init__".toList

/-- The segments of a source path without its extension. Both `/` and `\` separate segments, so that
a build description names the same modules on every platform; empty and `.` segments are skipped. -/
def segments (p : Path) : List Text :=
  (Text.splitOn (fun c => c == '/' || c == '\\') (p.withSuffix []).text).filter fun s =>
    !s.isEmpty && s != ['.']

/-- The dotted name of a source path, each segment counted. -/
def fullName (p : Path) : Text :=
  Text.join ['.'] (segments p)

/-- The dotted name of a source path, in which an initialiser stands for its package. -/
def moduleName (p : Path) : Text :=
  Text.join ['.'] ((segments p).filter (· != initSegment))

/-- An input file. -/
structure Source where
  /-- The path as given. -/
  input : Path
  /-- The path seen from the home directory. -/
  path : Path
  deriving DecidableEq, Repr

namespace Source

/-- The source at a path, seen from `home` if there is one. -/
def resolve (input : Path) (home : Option Path) : Source where
  input := input
  path := match home with
    | some home => home.join input
    | none => input

/-- The source at a path, which must have an extension of the kind. -/
def ofKind (kind : SourceKind) (input : Path) (home : Option Path) : Except Failure Source :=
  if kind.accepts input then .ok (.resolve input home)
  else .error ⟨.unsupportedExtension input input.suffix, none⟩

end Source

/-- A source with its qualified names. -/
structure NamedSource extends Source where
  /-- The name under which it is imported. -/
  name : Text
  /-- The name as spelled by the path. -/
  fullName : Text
  deriving DecidableEq, Repr

namespace NamedSource

/-- A source with the names that its path spells. -/
def of (s : Source) : NamedSource :=
  { s with name := moduleName s.input, fullName := NativeFreeze.fullName s.input }

/-- Whether the source initialises a package. -/
def isPackageInit (s : NamedSource) : Bool :=
  Text.endsWith initSegment s.fullName

end NamedSource

end NativeFreeze
