import NativeFreeze.Layout.Basic

/-!
# Bundle plans

A bundle holds what an executable needs from an installation. Its plan is made from the traced paths
alone: native libraries are copied as they are, files directly below the root of an archived subtree
are archived on their own, and a file further down brings in the whole folder below the root,
because imports within a package are not traced one by one.
-/

namespace NativeFreeze

/-- A file or folder to be archived, and the name that it is stored under. -/
structure ArchiveSource where
  path : Path
  name : Text
  deriving DecidableEq, Repr

/-- Whether two sources have the same name and the same path, component by component. -/
def ArchiveSource.same (a b : ArchiveSource) : Bool :=
  a.path.same b.path && a.name == b.name

/-- What a bundle is made of. -/
structure BundlePlan where
  files : List ArchiveSource := []
  folders : List ArchiveSource := []
  native : List Path := []
  deriving DecidableEq, Repr

namespace BundlePlan

/-- `x` added at the end, unless something like it is there. -/
def addNew {α : Type} (same : α → α → Bool) (x : α) (xs : List α) : List α :=
  if xs.any (same x) then xs else xs ++ [x]

/-- In a sorted list, of paths with equal components only the last. -/
def lastOfEqual : List Path → List Path
  | [] => []
  | [p] => [p]
  | p :: q :: rest => if p.same q then lastOfEqual (q :: rest) else p :: lastOfEqual (q :: rest)

/-- What a path adds to a plan. -/
inductive Share
  | nothing
  | file (source : ArchiveSource)
  | folder (source : ArchiveSource)
  | library (path : Path)
  deriving DecidableEq, Repr

/-- The share of a path: by its subtree and the number of its segments below the subtree's root. -/
def share (h : Layout) (p : Path) : Share :=
  match h.classify? p with
  | none => .nothing
  | some kind =>
    if !kind.isArchived then .library p
    else
      match h.segmentsBelow? p (h.root kind) with
      | none | some [] => .nothing
      | some [name] => .file ⟨p, name⟩
      | some (top :: _ :: _) => .folder ⟨(h.root kind).child top, top⟩

/-- The plan with one more share. -/
def add (plan : BundlePlan) : Share → BundlePlan
  | .nothing => plan
  | .file s => { plan with files := addNew ArchiveSource.same s plan.files }
  | .folder s => { plan with folders := addNew ArchiveSource.same s plan.folders }
  | .library p => { plan with native := addNew Path.same p plan.native }

/-- The plan for some dependencies, in any order and with repetitions. -/
def ofDependencies (h : Layout) (dependencies : List Path) : BundlePlan :=
  ((lastOfEqual (Path.sort dependencies)).map (share h)).foldl add {}

/-- A summary of a plan. -/
def describe (plan : BundlePlan) : Text :=
  Text.ofNat plan.files.length ++ " file(s), ".toList ++
    Text.ofNat plan.folders.length ++ " package folder(s), ".toList ++
    Text.ofNat plan.native.length ++ ' ' :: Subtree.native.name ++ " librar(ies)".toList

end BundlePlan

end NativeFreeze
