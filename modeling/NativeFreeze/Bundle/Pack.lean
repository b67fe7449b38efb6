import NativeFreeze.Bundle.Plan
import NativeFreeze.Generated.Registration
import NativeFreeze.Workspace

/-!
# Packing bundles

The members of the archive are the files of a plan and then, folder by folder, every regular file
below it outside cache directories. A name that is taken keeps its first member. Packing writes the
archive into a directory and copies the native libraries beside it.
-/

namespace NativeFreeze

namespace BundlePlan

/-- The name of the directories that never make it into an archive. -/
def cacheName : Text := "__pycache__".toList

/-- The name under which the file `p` of `folder` is stored. -/
def memberName (folder : ArchiveSource) (p : Path) : Text :=
  folder.name ++
    ((folder.path.below? p).getD p.components).flatMap fun component => '/' :: component.text

/-- The regular files of a folder, in the order of a walk that goes depth first and by name. A link
to a directory is walked only where it is the folder itself. -/
def walkFolder (t : FileTree) (folder : Path) : Except FileError (List Path) := do
  let regular := fun (visited : List (Path × Entry)) =>
    visited.filterMap fun (p, e) => if e.isFile then some p else none
  let isCache := (folder.fileName?.getD folder.text) == cacheName
  match ← t.linkAt? folder with
  | (_, .file ..) => return if isCache then [] else [folder]
  | (l, .directory) => return if isCache then [] else regular (t.visit (· == cacheName) l folder)
  | (_, .link _) =>
    match ← t.at? folder with
    | (l, .directory) => return regular (t.visit (· == cacheName) l folder)
    | _ => return []

/-- The files of some folders with their member names, up to the first folder that cannot be walked,
and why it cannot. -/
def folderFiles (t : FileTree) : List ArchiveSource → List ArchiveSource × Option Failure
  | [] => ([], none)
  | folder :: rest =>
    match walkFolder t folder.path with
    | .error e => ([], some ⟨.walk folder.path e, some (.walking folder.path)⟩)
    | .ok ps =>
      let (sources, failure) := folderFiles t rest
      (ps.map (fun p => ⟨p, memberName folder p⟩) ++ sources, failure)

/-- Every source that a plan offers, with its member name: the files, then each folder's. -/
def candidates (plan : BundlePlan) (t : FileTree) : List ArchiveSource × Option Failure :=
  let (sources, failure) := folderFiles t plan.folders
  (plan.files ++ sources, failure)

/-- The sources whose names are not taken by an earlier one, and those that lost their place. -/
def claim : (taken : List Text) → List ArchiveSource → List ArchiveSource × List ArchiveSource
  | _, [] => ([], [])
  | taken, s :: rest =>
    if taken.contains s.name then
      let (kept, dropped) := claim taken rest
      (kept, s :: dropped)
    else
      let (kept, dropped) := claim (s.name :: taken) rest
      (s :: kept, dropped)

/-- The members of the archive of a plan, in order. -/
def members (plan : BundlePlan) : Action (List ArchiveSource) := do
  let (sources, failure) := plan.candidates (← Action.files)
  let (kept, dropped) := claim [] sources
  for s in dropped do
    Action.note .warn .bundle ("Skipping ".toList ++ s.path.text ++ ": archive entry ".toList ++
      s.name ++ " is already taken".toList)
  match failure with
  | some failure => throw failure
  | none => return kept

end BundlePlan

/-- A written bundle: its archive and the native libraries beside it. -/
structure Bundle where
  archive : Path
  native : List Path
  deriving DecidableEq, Repr

namespace Bundle

/-- Reads the members one after the other into the archive. -/
def fillArchive (archive : Path) : Archive → List ArchiveSource → Action Unit
  | _, [] => pure ()
  | done, s :: rest => do
    let read := (← Action.files).read s.path
    let bytes ← match read with
      | .ok bytes => pure bytes
      | .error .isDirectory => Action.fail (.file .isDirectory) (some (.adding s.name))
      | .error e => Action.fail (.file e) (some (.opening s.path))
    let done := done ++ [⟨s.name, bytes⟩]
    Action.change (some (.creating archive)) (·.write archive (.archive done))
    fillArchive archive done rest

/-- Writes the archive of some members. -/
def writeArchive (archive : Path) (members : List ArchiveSource) : Action Unit := do
  Action.note .info .bundle ("Pack ".toList ++ archive.text)
  Action.change (some (.creating archive)) (·.write archive (.archive []))
  fillArchive archive [] members

/-- Copies a library into a directory, and answers where it went. -/
def copyLibrary (outDir : Path) (library : Path) : Action (Option Path) := do
  match library.fileName? with
  | none => return none
  | some name =>
    Action.note .info .bundle ("Copy ".toList ++ library.text)
    Action.change (some (.copying library (outDir.child name)))
      (·.copy library (outDir.child name))
    return some (outDir.child name)

/-- Packs some dependencies into a directory. -/
def pack (h : Layout) (dependencies : List Path) (outDir : Path) : Action Bundle := do
  let plan := BundlePlan.ofDependencies h dependencies
  Action.note .info .bundle ("Bundle of ".toList ++ plan.describe)
  Action.makeAll (some (.creating outDir)) outDir
  let archive := outDir.child archiveName
  writeArchive archive (← plan.members)
  let native ← plan.native.filterMapM (copyLibrary outDir)
  return ⟨archive, native⟩

end Bundle

end NativeFreeze
