import NativeFreeze.Text.Basic

/-!
# Resource descriptors

A resource descriptor gives an executable its version information and an optional icon. It is
written in the language of resource scripts and only linked, never transpiled.
-/

namespace NativeFreeze

/-- A version of three numbers. -/
structure Version where
  major : UInt32
  minor : UInt32
  patch : UInt32
  deriving DecidableEq, Repr

/-- The version with dots between its numbers. -/
def Version.dotted (v : Version) : Text :=
  Text.ofNat v.major.toNat ++ '.' :: Text.ofNat v.minor.toNat ++ '.' :: Text.ofNat v.patch.toNat

/-- The contents of a descriptor; every field may be left out. -/
structure Descriptor where
  iconPath : Option Text := none
  fileVersion : Option Version := none
  companyName : Option Text := none
  fileDescription : Option Text := none
  internalName : Option Text := none
  originalFilename : Option Text := none
  productName : Option Text := none
  productVersion : Option Version := none
  comments : Option Text := none
  legalCopyright : Option Text := none
  deriving DecidableEq, Repr, Inhabited

namespace Descriptor

/-- The version of the file, zero unless set. -/
def version (d : Descriptor) : Version :=
  d.fileVersion.getD ⟨0, 0, 0⟩

/-- The entries of the string block: the file version, and each field that is set. -/
def values (d : Descriptor) : List (Text × Text) :=
  [("FileVersion", some d.version.dotted),
    ("CompanyName", d.companyName),
    ("FileDescription", d.fileDescription),
    ("InternalName", d.internalName),
    ("OriginalFilename", d.originalFilename),
    ("ProductName", d.productName),
    ("ProductVersion", d.productVersion.map Version.dotted),
    ("Comments", d.comments),
    ("LegalCopyright", d.legalCopyright)].filterMap fun (key, value) =>
      value.map (key.toList, ·)

/-- The line of an entry of the string block. -/
def valueLine (key value : Text) : Text :=
  "      VALUE \"".toList ++ key ++ "\", \"".toList ++ value ++ "\"\n".toList

/-- The line of the icon, if there is one. -/
def iconLine (d : Descriptor) : Text :=
  match d.iconPath with
  | some icon => "IDI_ICON1 ICON \"".toList ++ icon ++ "\"\n".toList
  | none => []

/-- The resource script. -/
def render (d : Descriptor) : Text :=
  ("#include <windows.h>\n" ++
    "#include <winver.h>\n" ++
    "\n").toList ++ d.iconLine ++
  ("\n" ++
    "1 VERSIONINFO\n" ++
    "FILEVERSION ").toList ++ Text.ofNat d.version.major.toNat ++
    ',' :: Text.ofNat d.version.minor.toNat ++ ',' :: Text.ofNat d.version.patch.toNat ++
  (",0\n" ++
    "BEGIN\n" ++
    "  BLOCK \"StringFileInfo\"\n" ++
    "  BEGIN\n" ++
    "    BLOCK \"040904B0\"\n" ++
    "    BEGIN\n").toList ++ (d.values.flatMap fun (key, value) => valueLine key value) ++
  ("    END\n" ++
    "  END\n" ++
    "\n" ++
    "  BLOCK \"VarFileInfo\"\n" ++
    "  BEGIN\n" ++
    "    VALUE \"Translation\", 0x409, 1200\n" ++
    "  END\n" ++
    "END\n").toList

end Descriptor

end NativeFreeze
