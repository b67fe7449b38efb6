import NativeFreeze.Source.Basic

/-!
# The host installation

A layout says where the parts of an interpreter's installation lie. Its three subtrees hold native
libraries, third-party packages and the standard library; a file is classified by the subtree that
it falls under, the first two before the third, since they may be nested in it.
-/

namespace NativeFreeze

/-- The subtrees of an installation. -/
inductive Subtree
  | native
  | thirdParty
  | standard
  deriving DecidableEq, Repr

namespace Subtree

/-- Whether files of a subtree go into the archive; native libraries are copied beside it. -/
def isArchived : Subtree → Bool
  | native => false
  | thirdParty => true
  | standard => true

/-- The name of a subtree. -/
def name : Subtree → Text
  | native => "native".toList
  | thirdParty => "third-party".toList
  | standard => "stdlib".toList

/-- The subtrees in the order in which a file is tried against them. -/
def all : List Subtree :=
  [native, thirdParty, standard]

end Subtree

/-- Where the parts of an installation lie. -/
structure Layout where
  /-- The interpreter that is used for tracing. -/
  executable : Path
  /-- The directory whose name starts every path of the installation in an import log. -/
  installRoot : Path
  stdlibDir : Path
  nativeDir : Path
  sitePackagesDir : Path
  includeDir : Path
  libraryDirs : List Path := []
  /-- The library that everything is linked with. -/
  linkLibrary : Option Text := none
  /-- The suffix of compiled extension modules. -/
  extSuffix : Text := ".so".toList
  nativeSuffixes : List Text := [".pyd".toList, ".so".toList]
  bytecodeSuffix : Text := ".pyc".toList
  sourceSuffix : Text := ".py".toList
  /-- The module whose import pulls in `ffiShim`, which no log shows. -/
  ffiBridgeModule : Text := "_ctypes".toList
  ffiShim : Option Path := none
  /-- The files that the interpreter needs whatever a log shows. -/
  requiredFiles : List Path := []
  /-- The pattern of the runtime's shared libraries below the install root. -/
  runtimeLibraryPattern : Path := ⟨"lib/*.so".toList⟩
  /-- Whether paths compare without ASCII case and with `\` for `/`. -/
  caseInsensitive : Bool := false
  deriving DecidableEq, Repr

namespace Layout

/-- The path of an entry named by a string literal. -/
def sub (p : Path) (name : String) : Path :=
  p.child name.toList

/-- The layout of an installation on Windows. -/
def windows (root : Path) (version : Text) : Layout where
  executable := sub root "python.exe"
  installRoot := root
  stdlibDir := sub root "Lib"
  nativeDir := sub root "DLLs"
  sitePackagesDir := sub (sub root "Lib") "site-packages"
  includeDir := sub root "include"
  libraryDirs := [sub root "libs"]
  linkLibrary := some ("python".toList ++ version.filter (· != '.'))
  extSuffix := ".pyd".toList
  nativeSuffixes := [".pyd".toList, ".dll".toList]
  ffiShim := some (sub (sub root "DLLs") "libffi-7.dll")
  requiredFiles := [sub (sub root "Lib") "stringprep.py", sub (sub root "DLLs") "unicodedata.pyd"]
  runtimeLibraryPattern := ⟨"*.dll".toList⟩
  caseInsensitive := true

/-- The files that a POSIX interpreter always needs. -/
def posixRequired (stdlibDir nativeDir : Path) (extSuffix : Text) : List Path :=
  [sub stdlibDir "stringprep.py", nativeDir.child ("unicodedata".toList ++ extSuffix)]

/-- The layout of an installation on POSIX systems. -/
def posix (root : Path) (version extSuffix : Text) : Layout :=
  let python := "python".toList ++ version
  let stdlibDir := (sub root "lib").child python
  let nativeDir := sub stdlibDir "lib-dynload"
  { executable := (sub root "bin").child python
    installRoot := root
    stdlibDir := stdlibDir
    nativeDir := nativeDir
    sitePackagesDir := sub stdlibDir "site-packages"
    includeDir := (sub root "include").child python
    libraryDirs := [sub root "lib"]
    linkLibrary := some python
    extSuffix := extSuffix
    nativeSuffixes := [".so".toList]
    requiredFiles := posixRequired stdlibDir nativeDir extSuffix }

/-- The suffixes that end the path of a dependency in a log. -/
def artifactSuffixes (h : Layout) : List Text :=
  h.nativeSuffixes ++ [h.bytecodeSuffix, h.sourceSuffix]

/-- The root of a subtree. -/
def root (h : Layout) : Subtree → Path
  | .native => h.nativeDir
  | .thirdParty => h.sitePackagesDir
  | .standard => h.stdlibDir

/-- What follows `head` in `s`, if `s` starts with it up to ASCII case. -/
def afterFolded? : (head s : Text) → Option Text
  | [], s => some s
  | _ :: _, [] => none
  | h :: hs, c :: cs => if h.toLower = c.toLower then afterFolded? hs cs else none

/-- The names of the components of `p` below `root`, compared as on a case-insensitive host. -/
def segmentsFolded? (p root : Path) : Option (List Text) :=
  match afterFolded? (Text.trimEnd (· == '/') (Path.slashed root.text)) (Path.slashed p.text) with
  | none => none
  | some [] => some []
  | some ('/' :: rest) => some ((Text.split '/' rest).filter fun s => !s.isEmpty)
  | some (_ :: _) => none

/-- The names of the components of `p` below `root`, if it lies there. -/
def segmentsBelow? (h : Layout) (p root : Path) : Option (List Text) :=
  if h.caseInsensitive then segmentsFolded? p root
  else (root.below? p).map fun components => components.map Path.Component.text

/-- The subtree that a file falls under. -/
def classify? (h : Layout) (p : Path) : Option Subtree :=
  Subtree.all.find? fun kind => (h.segmentsBelow? p (h.root kind)).isSome

end Layout

end NativeFreeze
