import NativeFreeze.Proofs.Bundle.Names
import NativeFreeze.Proofs.FileTree.Copies

/-!
# Libraries beside an archive

The native libraries of a plan may stand anywhere below one directory, and all are copied into the
directory of the archive, each to its file name. So of two libraries with one file name the second is
copied over the first, and a library that is named like the archive is copied over that. Where no library
and no member stands where something is written, nothing else can happen to a bundle.
-/

namespace NativeFreeze

open FileTree

variable {h : Layout} {t t' : FileTree} {w w' ready : Workspace} {outDir archive : Path}
  {members : List ArchiveSource} {libraries targets dependencies : List Path} {all all' done : Archive}
  {bundle : Bundle} {c : Path × Path}

namespace Bundle

/-! ## The archive -/

/-- The archive holds what the members hold, each under its name and in their order. -/
def MadeFrom (t : FileTree) (members : List ArchiveSource) (all : Archive) : Prop :=
  List.Forall₂ (fun s m => m.name = s.name ∧ t.read s.path = .ok m.content) members all

theorem MadeFrom.unique (made : MadeFrom t members all) (made' : MadeFrom t members all') :
    all = all' := by
  induction made generalizing all' with
  | nil =>
    cases made'
    rfl
  | @cons s m rest others here _ ih =>
    cases made' with
    | @cons _ m' _ others' here' later =>
      have name : m.name = m'.name := here.1.trans here'.1.symm
      have content : m.content = m'.content := Except.ok.inj (here.2.symm.trans here'.2)
      obtain ⟨_, _⟩ := m
      obtain ⟨_, _⟩ := m'
      obtain rfl := name
      obtain rfl := content
      rw [ih later]

theorem MadeFrom.mono (made : MadeFrom t' members all)
    (reads : ∀ s ∈ members, ∀ bytes, t'.read s.path = .ok bytes → t.read s.path = .ok bytes) :
    MadeFrom t members all := by
  induction made with
  | nil => exact .nil
  | cons here _ ih =>
    obtain ⟨first, rest⟩ := List.forall_mem_cons.mp reads
    exact .cons ⟨here.1, first _ here.2⟩ (ih rest)

/-- Members that do not stand where the archive goes are added to it as they are. -/
theorem fillArchive_madeFrom (there : w.files.Holds archive (.archive done))
    (apart : ∀ s ∈ members, w.files.goal true s.path ≠ w.files.goal true archive)
    (filled : (fillArchive archive done members).result w = (.ok (), w')) :
    ∃ all, MadeFrom w.files members all ∧ w'.files.Holds archive (.archive (done ++ all)) ∧
      Rewritten archive w.files w'.files := by
  induction members generalizing done w with
  | nil =>
    obtain ⟨-, rfl⟩ := Prod.mk.inj filled
    exact ⟨[], .nil, by rwa [List.append_nil], .refl archive w.files⟩
  | cons s rest ih =>
    obtain ⟨first, others⟩ := List.forall_mem_cons.mp apart
    rw [fillArchive] at filled
    obtain ⟨t, w₁, files, filled⟩ := Action.bind_eq_ok filled
    rw [Action.result_files, Prod.mk.injEq, Except.ok.injEq] at files
    obtain ⟨rfl, rfl⟩ := files
    dsimp only at filled
    cases read : w.files.read s.path with
    | error e => cases e <;> simp [read, Action.result_bind] at filled
    | ok bytes =>
      simp only [read, pure_bind] at filled
      obtain ⟨_, w₂, changed, filled⟩ := Action.bind_eq_ok filled
      have wrote := wrote_of_write (Action.files_of_change changed)
      have rewritten := wrote.rewritten
      obtain ⟨all, made, holds, later⟩ := ih wrote.holds
        (fun s hs => by rw [rewritten.goal, rewritten.goal]; exact others s hs) filled
      refine ⟨⟨s.name, bytes⟩ :: all, ?_, ?_, rewritten.trans later⟩
      · refine .cons ⟨rfl, read⟩ (made.mono fun s hs bytes => ?_)
        exact (rewritten.read_eq_ok_iff (others s hs)).mp
      · rwa [List.append_assoc] at holds

theorem writeArchive_madeFrom
    (apart : ∀ s ∈ members, w.files.goal true s.path ≠ w.files.goal true archive)
    (written : (writeArchive archive members).result w = (.ok (), w')) :
    ∃ all, MadeFrom w.files members all ∧ w'.files.Holds archive (.archive all) ∧
      Rewritten archive w.files w'.files := by
  rw [writeArchive] at written
  obtain ⟨_, w₁, noted, written⟩ := Action.bind_eq_ok written
  obtain rfl : _ = w₁ := congrArg Prod.snd noted
  obtain ⟨_, w₂, changed, written⟩ := Action.bind_eq_ok written
  have wrote := wrote_of_write (Action.files_of_change changed)
  have rewritten := wrote.rewritten
  obtain ⟨all, made, holds, later⟩ := fillArchive_madeFrom wrote.holds
    (fun s hs => by rw [rewritten.goal, rewritten.goal]; exact apart s hs) written
  refine ⟨all, made.mono fun s hs bytes => ?_, holds, rewritten.trans later⟩
  exact (rewritten.read_eq_ok_iff (apart s hs)).mp

/-! ## The libraries -/

/-- The libraries that have a file name, and where in the directory they go. -/
def copies (outDir : Path) (libraries : List Path) : List (Path × Path) :=
  libraries.filterMap fun library => library.fileName?.map fun name => (library, outDir.child name)

theorem mem_copies_iff : c ∈ copies outDir libraries ↔
    c.1 ∈ libraries ∧ ∃ name, c.1.fileName? = some name ∧ c.2 = outDir.child name := by
  obtain ⟨library, target⟩ := c
  simp only [copies, List.mem_filterMap, Option.map_eq_some_iff, Prod.mk.injEq]
  constructor
  · rintro ⟨library, mem, name, named, rfl, rfl⟩
    exact ⟨mem, name, named, rfl⟩
  · rintro ⟨mem, name, named, rfl⟩
    exact ⟨library, mem, name, named, rfl, rfl⟩

theorem map_copies (outDir : Path) (libraries : List Path) :
    (copies outDir libraries).map (·.2) = (libraries.filterMap Path.fileName?).map outDir.child := by
  induction libraries with
  | nil => rfl
  | cons library rest ih =>
    rw [copies] at ih ⊢
    cases named : library.fileName? <;> simp [named, ih]

theorem copied_of_copyLibraries
    (h : (libraries.filterMapM (copyLibrary outDir)).result w = (.ok targets, w')) :
    Copied w.files (copies outDir libraries) w'.files ∧
      targets = (copies outDir libraries).map (·.2) := by
  induction libraries generalizing w targets with
  | nil =>
    obtain ⟨answer, rfl⟩ := Prod.mk.inj h
    exact ⟨.nil, (Except.ok.inj answer).symm⟩
  | cons library rest ih =>
    rw [List.filterMapM_cons] at h
    obtain ⟨answer, w₁, copied, h⟩ := Action.bind_eq_ok h
    rcases copyLibrary_cases copied with ⟨unnamed, rfl, same⟩ | ⟨name, named, rfl, first⟩
    · have skipped : copies outDir (library :: rest) = copies outDir rest := by
        simp [copies, unnamed]
      rw [skipped, ← same]
      exact ih h
    · have taken : copies outDir (library :: rest) =
          (library, outDir.child name) :: copies outDir rest := by
        simp [copies, named]
      obtain ⟨others, w₂, later, h⟩ := Action.bind_eq_ok h
      simp only [Action.result_pure, Prod.mk.injEq, Except.ok.injEq] at h
      obtain ⟨rfl, rfl⟩ := h
      obtain ⟨run, rfl⟩ := ih later
      rw [taken]
      exact ⟨.cons first run, rfl⟩

/-- Targets are told apart by the names of their libraries. -/
theorem nodup_targets_iff (outDir : Path) (libraries : List Path) :
    (((copies outDir libraries).map (·.2)).map Path.components).Nodup ↔
      (libraries.filterMap Path.fileName?).Nodup := by
  rw [map_copies, List.map_map]
  constructor
  · exact List.Nodup.of_map _
  · intro distinct
    refine distinct.map_on fun s hs s' hs' same => ?_
    obtain ⟨library, -, named⟩ := List.mem_filterMap.mp hs
    obtain ⟨library', -, named'⟩ := List.mem_filterMap.mp hs'
    simpa [Path.components_child_of_isName, Path.isName_of_fileName? named,
      Path.isName_of_fileName? named'] using same

/-! ## Bundles -/

/-- No member stands where the archive goes, and no library where anything is written. -/
structure Spares (t : FileTree) (outDir : Path) (members : List ArchiveSource)
    (libraries : List Path) : Prop where
  members : ∀ s ∈ members, t.goal true s.path ≠ t.goal true (outDir.child archiveName)
  archive : ∀ c ∈ copies outDir libraries,
    t.goal true c.1 ≠ t.goal true (outDir.child archiveName)
  targets : t.Spared (copies outDir libraries)

/-- A bundle as it should be: every library is left under its name in the directory, no target is named
twice, and the archive is made from the members. -/
structure Intact (before after : FileTree) (outDir : Path) (members : List ArchiveSource)
    (libraries : List Path) (bundle : Bundle) : Prop where
  survive : ∀ library ∈ libraries, ∀ name, library.fileName? = some name →
    ∃ content, before.Holds library content ∧ after.Holds (outDir.child name) content
  distinct : (bundle.native.map Path.components).Nodup
  stored : ∃ all, MadeFrom before members all ∧
    after.Holds (outDir.child archiveName) (.archive all)

/-- No two libraries have one file name, libraries that go to one place hold the same, and one that goes
to the place of the archive holds that archive. -/
structure Apart (t : FileTree) (outDir : Path) (members : List ArchiveSource)
    (libraries : List Path) : Prop where
  names : (libraries.filterMap Path.fileName?).Nodup
  agree : t.Agree (copies outDir libraries)
  archive : ∀ c ∈ copies outDir libraries,
    t.goal true c.2 = t.goal true (outDir.child archiveName) →
      ∃ all, MadeFrom t members all ∧ t.Holds c.1 (.archive all)

theorem forall_copies_iff {P : Path → Path → Prop} : (∀ c ∈ copies outDir libraries, P c.1 c.2) ↔
    ∀ library ∈ libraries, ∀ name, library.fileName? = some name → P library (outDir.child name) := by
  constructor
  · exact fun all library mem name named =>
      all (library, outDir.child name) (mem_copies_iff.mpr ⟨mem, name, named, rfl⟩)
  · intro all c hc
    obtain ⟨mem, name, named, target⟩ := mem_copies_iff.mp hc
    exact target ▸ all c.1 mem name named

section Written
variable {mid : FileTree} (made : MadeFrom t members all)
  (archived : mid.Holds (outDir.child archiveName) (.archive all))
  (rewritten : Rewritten (outDir.child archiveName) t mid)
  (copied : Copied mid (copies outDir libraries) t') (spares : Spares t outDir members libraries)
include rewritten spares

theorem Spares.spared : mid.Spared (copies outDir libraries) := by
  intro c hc d hd
  rw [rewritten.goal, rewritten.goal]
  exact spares.targets c hc d hd

include copied

/-- The libraries are left exactly if those that go to one place hold the same. -/
theorem survive_iff :
    (∀ library ∈ libraries, ∀ name, library.fileName? = some name →
      ∃ content, t.Holds library content ∧ t'.Holds (outDir.child name) content) ↔
      t.Agree (copies outDir libraries) := by
  rw [← rewritten.agree_iff spares.archive,
    ← copied.forall_holds_iff (spares.spared rewritten),
    ← forall_copies_iff (P := fun p q => ∃ content, t.Holds p content ∧ t'.Holds q content)]
  apply forall₂_congr
  intro c hc
  simp only [rewritten.holds c.1 _ (spares.archive c hc)]

include made archived

/-- The archive is left as it was made exactly if every library that goes to its place holds it, where
the libraries are left. -/
theorem stored_iff (agree : t.Agree (copies outDir libraries)) :
    (∃ all, MadeFrom t members all ∧ t'.Holds (outDir.child archiveName) (.archive all)) ↔
      ∀ c ∈ copies outDir libraries, t.goal true c.2 = t.goal true (outDir.child archiveName) →
        ∃ all, MadeFrom t members all ∧ t.Holds c.1 (.archive all) := by
  have spared := spares.spared rewritten
  constructor
  · rintro ⟨all, made, left⟩ c hc heads
    have same : t'.goal true c.2 = t'.goal true (outDir.child archiveName) := by
      rw [copied.goal spared, copied.goal spared, rewritten.goal, rewritten.goal, heads]
    obtain ⟨content, held⟩ := copied.exists_holds spared hc
    have target := copied.holds_target spared ((rewritten.agree_iff spares.archive).mpr agree) hc held
    obtain rfl := target.unique left same
    exact ⟨all, made, (rewritten.holds c.1 _ (spares.archive c hc)).mp held⟩
  · intro there
    refine ⟨all, made, copied.keep spared archived fun c hc heads => ?_⟩
    rw [rewritten.goal, rewritten.goal] at heads
    obtain ⟨all', made', held⟩ := there c hc heads
    rw [rewritten.holds c.1 _ (spares.archive c hc), made.unique made']
    exact held

end Written

/-- Where nothing that is read is written, a bundle is as it should be exactly if its libraries are
apart. -/
theorem intact_iff
    (gathered : (gather (BundlePlan.ofDependencies h dependencies) outDir).result w =
      (.ok members, ready))
    (packed : (pack h dependencies outDir).result w = (.ok bundle, w'))
    (spares : Spares ready.files outDir members (BundlePlan.ofDependencies h dependencies).native) :
    bundle.archive = outDir.child archiveName ∧
      (Intact ready.files w'.files outDir members (BundlePlan.ofDependencies h dependencies).native
          bundle ↔
        Apart ready.files outDir members (BundlePlan.ofDependencies h dependencies).native) := by
  obtain ⟨found, w₁, w₂, stage, place, written, run⟩ := exists_stages_of_pack packed
  rw [gathered, Prod.mk.injEq, Except.ok.injEq] at stage
  obtain ⟨rfl, rfl⟩ := stage
  rw [place] at written
  obtain ⟨all, made, archived, rewritten⟩ := writeArchive_madeFrom spares.members written
  obtain ⟨copied, native⟩ := copied_of_copyLibraries run
  have survive := survive_iff rewritten copied spares
  have stored := stored_iff made archived rewritten copied spares
  have distinct := nodup_targets_iff outDir (BundlePlan.ofDependencies h dependencies).native
  refine ⟨place, fun intact => ?_, fun apart => ?_⟩
  · have agree := survive.mp intact.survive
    exact ⟨distinct.mp (native ▸ intact.distinct), agree, (stored agree).mp intact.stored⟩
  · exact ⟨survive.mpr apart.agree, native ▸ distinct.mpr apart.names,
      (stored apart.agree).mpr apart.archive⟩

/-- An installation with a module, a native library, and another one in a directory below. -/
def natives (deeper : String) : Workspace where
  files := {
    entries := (["inst", "inst/lib", "inst/lib/python3.11", "inst/lib/python3.11/lib-dynload",
        "inst/lib/python3.11/lib-dynload/sub"].map fun p => (Text.split '/' p.toList, .directory)) ++
      [("inst/lib/python3.11/abc.py", "x = 1"), ("inst/lib/python3.11/lib-dynload/_x.so", "1"),
        ("inst/lib/python3.11/lib-dynload/sub/" ++ deeper, "2")].map fun (p, s) =>
        (Text.split '/' p.toList, .file (.plain (Text.bytes s.toList)) false) }

/-- The module and both libraries, in order. -/
def nativePaths (deeper : String) : List Path :=
  ["inst/lib/python3.11/abc.py", "inst/lib/python3.11/lib-dynload/_x.so",
    "inst/lib/python3.11/lib-dynload/sub/" ++ deeper].map fun p => ⟨p.toList⟩

/-- Their plan. -/
def nativePlan (deeper : String) : BundlePlan where
  files := [⟨⟨"inst/lib/python3.11/abc.py".toList⟩, "abc.py".toList⟩]
  native := (nativePaths deeper).drop 1

theorem ofDependencies_nativePaths {deeper : String} (hd : deeper = "_x.so" ∨ deeper = "_y.so") :
    BundlePlan.ofDependencies BundlePlan.installed (nativePaths deeper) = nativePlan deeper := by
  have sorted : (nativePaths deeper).Pairwise fun p q => p.le q = true := by
    rcases hd with rfl | rfl <;> decide +kernel
  rw [BundlePlan.ofDependencies, Path.sort, List.mergeSort_of_pairwise sorted]
  rcases hd with rfl | rfl <;> decide +kernel

/-- The directory that they are packed into. -/
def distribution : Path :=
  ⟨"dist".toList⟩

/-- The workspace once the directory stands. -/
def nativesReady (deeper : String) : Workspace :=
  ((gather (nativePlan deeper) distribution).result (natives deeper)).2

theorem gather_natives {deeper : String} (hd : deeper = "_x.so" ∨ deeper = "_y.so") :
    (gather (BundlePlan.ofDependencies BundlePlan.installed (nativePaths deeper)) distribution).result
      (natives deeper) = (.ok (nativePlan deeper).files, nativesReady deeper) := by
  rw [ofDependencies_nativePaths hd]
  apply Action.result_eq_of_ok
  rcases hd with rfl | rfl <;> decide +kernel

theorem spares_natives : Spares (nativesReady "_y.so").files distribution (nativePlan "_y.so").files
    (nativePlan "_y.so").native where
  members := by decide +kernel
  archive := by decide +kernel
  targets := by decide +kernel

theorem intact_iff_natives :
    ∃ bundle w',
      (pack BundlePlan.installed (nativePaths "_y.so") distribution).result (natives "_y.so") =
        (.ok bundle, w') ∧
      bundle.archive = ⟨"dist/python.zip".toList⟩ ∧
      Intact (nativesReady "_y.so").files w'.files distribution (nativePlan "_y.so").files
        (BundlePlan.ofDependencies BundlePlan.installed (nativePaths "_y.so")).native bundle := by
  have plan := ofDependencies_nativePaths (.inr rfl : "_y.so" = "_x.so" ∨ "_y.so" = "_y.so")
  have packed : ((pack BundlePlan.installed (nativePaths "_y.so") distribution).result
      (natives "_y.so")).1 =
        .ok ⟨⟨"dist/python.zip".toList⟩, [⟨"dist/_x.so".toList⟩, ⟨"dist/_y.so".toList⟩]⟩ := by
    simp only [pack, plan]
    decide +kernel
  have elsewhere : ∀ c ∈ copies distribution (nativePlan "_y.so").native,
      (nativesReady "_y.so").files.goal true c.2 ≠
          (nativesReady "_y.so").files.goal true (distribution.child archiveName) ∧
        ∀ d ∈ copies distribution (nativePlan "_y.so").native,
          (nativesReady "_y.so").files.goal true c.2 =
            (nativesReady "_y.so").files.goal true d.2 → c = d := by decide +kernel
  obtain ⟨place, intact⟩ := intact_iff (gather_natives (.inr rfl)) (Action.result_eq_of_ok packed)
    (plan ▸ spares_natives)
  refine ⟨_, _, Action.result_eq_of_ok packed, place, intact.mpr ?_⟩
  rw [plan]
  refine ⟨by decide +kernel, ?_, ?_⟩
  · intro c hc d hd heads content
    rw [(elsewhere c hc).2 d hd heads]
  · intro c hc heads
    exact absurd heads (elsewhere c hc).1

/-- Of two libraries with one file name, nothing is left of the first. -/
theorem not_intact_namesakes :
    ∃ bundle w',
      (pack BundlePlan.installed (nativePaths "_x.so") distribution).result (natives "_x.so") =
        (.ok bundle, w') ∧
      (gather (BundlePlan.ofDependencies BundlePlan.installed (nativePaths "_x.so"))
        distribution).result (natives "_x.so") =
          (.ok (nativePlan "_x.so").files, nativesReady "_x.so") ∧
      w'.files.read (distribution.child "_x.so".toList) = .ok (Text.bytes "2".toList) ∧
      ¬Intact (nativesReady "_x.so").files w'.files distribution (nativePlan "_x.so").files
        (BundlePlan.ofDependencies BundlePlan.installed (nativePaths "_x.so")).native bundle := by
  have plan := ofDependencies_nativePaths (.inl rfl : "_x.so" = "_x.so" ∨ "_x.so" = "_y.so")
  have packed : ((pack BundlePlan.installed (nativePaths "_x.so") distribution).result
      (natives "_x.so")).1 =
        .ok ⟨⟨"dist/python.zip".toList⟩, [⟨"dist/_x.so".toList⟩, ⟨"dist/_x.so".toList⟩]⟩ := by
    simp only [pack, plan]
    decide +kernel
  have left : ((pack BundlePlan.installed (nativePaths "_x.so") distribution).result
      (natives "_x.so")).2.files.read (distribution.child "_x.so".toList) =
        .ok (Text.bytes "2".toList) := by
    simp only [pack, plan]
    decide +kernel
  refine ⟨_, _, Action.result_eq_of_ok packed, gather_natives (.inl rfl), left, ?_⟩
  intro intact
  exact absurd intact.distinct (by decide +kernel)

end Bundle

end NativeFreeze
