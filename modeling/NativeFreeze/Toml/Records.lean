import NativeFreeze.Descriptor
import NativeFreeze.Layout.Basic
import NativeFreeze.Toml.Value

/-!
# Records shared by configuration documents

How paths, versions, layouts and descriptors are read from the values of a document.
-/

namespace NativeFreeze

namespace Toml

/-- A path. -/
def Value.path? (v : Value) : Option Path :=
  v.text?.map Path.mk

/-- A list of paths. -/
def Value.paths? (v : Value) : Option (List Path) :=
  v.list? Value.path?

/-- A number of a version. -/
def Value.word? (v : Value) : Option UInt32 :=
  (v.below? UInt32.size).map UInt32.ofNat

/-- A version: the first three elements of a list. -/
def Value.version? : Value → Option Version
  | .list _ (major :: minor :: patch :: _) => do
    return ⟨← major.word?, ← minor.word?, ← patch.word?⟩
  | _ => none

end Toml

open Toml

/-- The names of a layout's fields. -/
def Layout.fieldNames : List String :=
  ["executable", "install_root", "stdlib_dir", "native_dir", "site_packages_dir", "include_dir",
    "library_dirs", "link_library", "ext_suffix", "native_suffixes", "bytecode_suffix",
    "source_suffix", "ffi_bridge_module", "ffi_shim", "required_files", "runtime_library_pattern",
    "case_insensitive_paths"]

/-- The layout that a value describes. Keys that are no fields are left out. -/
def Layout.ofValue? (v : Value) : Option Layout := do
  let es ← v.fields? fieldNames true
  return {
    executable := ← es.required "executable" Value.path?
    installRoot := ← es.required "install_root" Value.path?
    stdlibDir := ← es.required "stdlib_dir" Value.path?
    nativeDir := ← es.required "native_dir" Value.path?
    sitePackagesDir := ← es.required "site_packages_dir" Value.path?
    includeDir := ← es.required "include_dir" Value.path?
    libraryDirs := ← es.withDefault "library_dirs" Value.paths? []
    linkLibrary := ← es.optional "link_library" Value.text?
    extSuffix := ← es.withDefault "ext_suffix" Value.text? ".so".toList
    nativeSuffixes := ← es.withDefault "native_suffixes" (Value.list? Value.text?)
      [".pyd".toList, ".so".toList]
    bytecodeSuffix := ← es.withDefault "bytecode_suffix" Value.text? ".pyc".toList
    sourceSuffix := ← es.withDefault "source_suffix" Value.text? ".py".toList
    ffiBridgeModule := ← es.withDefault "ffi_bridge_module" Value.text? "_ctypes".toList
    ffiShim := ← es.optional "ffi_shim" Value.path?
    requiredFiles := ← es.withDefault "required_files" Value.paths? []
    runtimeLibraryPattern := ← es.withDefault "runtime_library_pattern" Value.path?
      ⟨"lib/*.so".toList⟩
    caseInsensitive := ← es.withDefault "case_insensitive_paths" Value.boolean? false }

/-- The names of a descriptor's fields. -/
def Descriptor.fieldNames : List String :=
  ["icon_path", "file_version", "company_name", "file_description", "internal_name",
    "original_filename", "product_name", "product_version", "comments", "legal_copyright"]

/-- The descriptor that a value describes. -/
def Descriptor.ofValue? (v : Value) : Option Descriptor := do
  let es ← v.fields? fieldNames false
  return {
    iconPath := ← es.optional "icon_path" Value.text?
    fileVersion := ← es.optional "file_version" Value.version?
    companyName := ← es.optional "company_name" Value.text?
    fileDescription := ← es.optional "file_description" Value.text?
    internalName := ← es.optional "internal_name" Value.text?
    originalFilename := ← es.optional "original_filename" Value.text?
    productName := ← es.optional "product_name" Value.text?
    productVersion := ← es.optional "product_version" Value.version?
    comments := ← es.optional "comments" Value.text?
    legalCopyright := ← es.optional "legal_copyright" Value.text? }

end NativeFreeze
