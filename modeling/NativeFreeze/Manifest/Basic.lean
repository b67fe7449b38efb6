import NativeFreeze.Node.Basic
import NativeFreeze.Toml.Document
import NativeFreeze.Toml.Records

/-!
# Build manifests

A manifest lists what to build: modules, packages, data and executables, in this order. Source
patterns are seen from its home, which is the directory of the manifest or a path seen from there.
-/

namespace NativeFreeze

/-- A module of a manifest. -/
structure ModuleEntry where
  sources : List Path
  package : Bool
  includeDirs : List Path
  libraryDirs : List Path
  deriving DecidableEq, Repr

/-- A package of a manifest. -/
structure PackageEntry where
  sources : List Path
  includeDirs : List Path
  libraryDirs : List Path
  deriving DecidableEq, Repr

/-- The data of a manifest. -/
structure DataEntry where
  sources : List Path
  deriving DecidableEq, Repr

/-- An executable of a manifest. -/
structure ExecutableEntry where
  main : Path
  name : Option Text
  sources : List Path
  modules : List ModuleEntry
  packages : List PackageEntry
  data : List DataEntry
  descriptor : Option Descriptor
  /-- Where the descriptor is generated; by default it is named for the executable. -/
  descriptorFile : Option Path
  standalone : Bool
  runtimeDir : Option Text
  includeDirs : List Path
  libraryDirs : List Path
  deriving DecidableEq, Repr

/-- A manifest. -/
structure Manifest where
  home : Option Path
  /-- Whether each node is cleaned up after it is built. -/
  clean : Bool
  modules : List ModuleEntry
  packages : List PackageEntry
  data : List DataEntry
  executables : List ExecutableEntry
  deriving DecidableEq, Repr

open Toml

/-- The module that a value describes. -/
def ModuleEntry.ofValue? (v : Value) : Option ModuleEntry := do
  let es ← v.fields? ["sources", "package", "include_dirs", "library_dirs"] false
  return {
    sources := ← es.required "sources" Value.paths?
    package := ← es.withDefault "package" Value.boolean? false
    includeDirs := ← es.withDefault "include_dirs" Value.paths? []
    libraryDirs := ← es.withDefault "library_dirs" Value.paths? [] }

/-- The package that a value describes. -/
def PackageEntry.ofValue? (v : Value) : Option PackageEntry := do
  let es ← v.fields? ["sources", "include_dirs", "library_dirs"] false
  return {
    sources := ← es.required "sources" Value.paths?
    includeDirs := ← es.withDefault "include_dirs" Value.paths? []
    libraryDirs := ← es.withDefault "library_dirs" Value.paths? [] }

/-- The data that a value describes. -/
def DataEntry.ofValue? (v : Value) : Option DataEntry := do
  let es ← v.fields? ["sources"] false
  return { sources := ← es.required "sources" Value.paths? }

/-- The executable that a value describes. -/
def ExecutableEntry.ofValue? (v : Value) : Option ExecutableEntry := do
  let es ← v.fields? ["main", "name", "sources", "module", "package", "data", "descriptor",
    "descriptor_file", "standalone", "runtime_dir", "include_dirs", "library_dirs"] false
  return {
    main := ← es.required "main" Value.path?
    name := ← es.optional "name" Value.text?
    sources := ← es.withDefault "sources" Value.paths? []
    modules := ← es.withDefault "module" (Value.list? ModuleEntry.ofValue?) []
    packages := ← es.withDefault "package" (Value.list? PackageEntry.ofValue?) []
    data := ← es.withDefault "data" (Value.list? DataEntry.ofValue?) []
    descriptor := ← es.optional "descriptor" Descriptor.ofValue?
    descriptorFile := ← es.optional "descriptor_file" Value.path?
    standalone := ← es.withDefault "standalone" Value.boolean? false
    runtimeDir := ← es.optional "runtime_dir" Value.text?
    includeDirs := ← es.withDefault "include_dirs" Value.paths? []
    libraryDirs := ← es.withDefault "library_dirs" Value.paths? [] }

namespace Manifest

/-- The usual name of a manifest. -/
def fileName : Text := "cyfreeze-build.toml".toList

/-- The manifest that a document describes. -/
def ofValue? (v : Value) : Option Manifest := do
  let es ← v.fields? ["home", "clean", "module", "package", "data", "executable"] false
  return {
    home := ← es.optional "home" Value.path?
    clean := ← es.withDefault "clean" Value.boolean? false
    modules := ← es.withDefault "module" (Value.list? ModuleEntry.ofValue?) []
    packages := ← es.withDefault "package" (Value.list? PackageEntry.ofValue?) []
    data := ← es.withDefault "data" (Value.list? DataEntry.ofValue?) []
    executables := ← es.withDefault "executable" (Value.list? ExecutableEntry.ofValue?) [] }

/-- The manifest in a file, its home seen from the directory of the file. -/
def load (file : Path) : Action Manifest := do
  let text ← Action.ask (some (.readingManifest file)) (·.readText file)
  match (Toml.parse? text).bind ofValue? with
  | none => Action.fail .malformedDocument (some (.parsingManifest file))
  | some m =>
    let base := file.parent?.getD ⟨[]⟩
    return { m with home := some (match m.home with
      | some home => base.join home
      | none => base) }

end Manifest

namespace ModuleEntry

/-- The node of a module. -/
def node (entry : ModuleEntry) (home : Path) : Action ModuleNode := do
  let m ← ModuleNode.ofPatterns entry.sources (some home) entry.package
  return { m with includeDirs := entry.includeDirs, libraryDirs := entry.libraryDirs }

end ModuleEntry

namespace PackageEntry

/-- The node of a package. -/
def node (entry : PackageEntry) (home : Path) : Action PackageNode := do
  let p ← PackageNode.ofPatterns entry.sources (some home)
  return ⟨{ p.module with
    includeDirs := entry.includeDirs, libraryDirs := entry.libraryDirs }⟩

end PackageEntry

namespace DataEntry

/-- The node of some data. -/
def node (entry : DataEntry) (home : Path) : Action DataNode :=
  DataNode.ofPatterns entry.sources (some home)

end DataEntry

namespace ExecutableEntry

/-- The name of an executable: the one that is set, or that of its main source. -/
def finalName (entry : ExecutableEntry) : Text :=
  entry.name.getD (moduleName entry.main)

/-- The inputs of an executable: its loose units, then its modules, packages and data. -/
def inputs (entry : ExecutableEntry) (home : Path) : Action (List ExecutableInput) := do
  let units ← BuildUnit.ofPatterns entry.sources (some home)
  let modules ← entry.modules.mapM fun m => m.node home
  let packages ← entry.packages.mapM fun p => p.node home
  let data ← entry.data.mapM fun d => d.node home
  return units.map .unit ++ modules.map .module ++ packages.map .package ++ data.map .data

/-- The descriptor of an executable, as an input. -/
def descriptorInput (entry : ExecutableEntry) (home : Path) :
    Except Failure (List ExecutableInput) :=
  match entry.descriptor with
  | none => .ok []
  | some config => do
    let file := entry.descriptorFile.getD ⟨entry.finalName ++ ".rc".toList⟩
    return [.unit (.descriptor (← DescriptorUnit.generated (home.join file) config))]

/-- The node of an executable. -/
def node (entry : ExecutableEntry) (home : Path) : Action ExecutableNode := do
  match ← BuildUnit.ofPath entry.main (some home) with
  | none => Action.fail (.entryPointNotBuildable entry.main)
  | some main =>
    let inputs ← entry.inputs home
    let descriptor ← Action.ofExcept (entry.descriptorInput home)
    let e ← Action.ofExcept (ExecutableNode.ofInputs main (inputs ++ descriptor))
    return { e with
      name := entry.finalName
      standalone := entry.standalone
      runtimeDir := entry.runtimeDir
      includeDirs := entry.includeDirs
      libraryDirs := entry.libraryDirs }

end ExecutableEntry

namespace Manifest

/-- The nodes of a manifest, in the order in which they are built. -/
def nodes (m : Manifest) : Action (List Node) := do
  let home := m.home.getD ⟨[]⟩
  let modules ← m.modules.mapM fun entry => entry.node home
  let packages ← m.packages.mapM fun entry => entry.node home
  let data ← m.data.mapM fun entry => entry.node home
  let executables ← m.executables.mapM fun entry => entry.node home
  return modules.map .module ++ packages.map .package ++ data.map .data ++
    executables.map .executable

end Manifest

end NativeFreeze
