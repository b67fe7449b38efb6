import NativeFreeze.Proofs.Bundle.Pack
import NativeFreeze.Proofs.Node.Run
import NativeFreeze.Proofs.Node.Runtime

/-!
# Bundles that outlive a run

A standalone executable packs the members that its plan calls for into the archive of its runtime
directory. Executables that share the directory share the archive, and each packs it anew: at the end of
a run it holds the members of the last one, whatever the others needed.
-/

namespace NativeFreeze

open Stage FileTree

variable {c : BuildContext} {w w' w₁ w₂ : Workspace}

namespace ExecutableNode

variable {e e' : ExecutableNode}

/-! ## What an executable packs -/

/-- Builds, links and traces an executable, and answers the plan of its bundle. -/
def plan (c : BuildContext) : Stage ExecutableNode BundlePlan := do
  let (sources, script) ← buildAll c
  let e ← Stage.part
  c.compileAndLink sources (c.compileOptions e.includeDirs) .executable
    (e.outputPath c.dirs.output) (c.linkOptions e.libraryDirs [])
  return BundlePlan.ofDependencies c.layout (← dependencies c script)

/-- Builds, links and traces an executable, and answers the members of its archive. -/
def members (c : BuildContext) : Stage ExecutableNode (List ArchiveSource) := do
  let plan ← plan c
  let e ← Stage.part
  Bundle.gather plan (c.dirs.output.child e.runtime)

/-- The native libraries of a plan are not copied to the place of the archive beside them. -/
def NativeApart (c : BuildContext) (e : ExecutableNode) (plan : BundlePlan) (t : FileTree) : Prop :=
  ∀ library ∈ plan.native, ∀ name, library.fileName? = some name →
    t.goal true ((c.dirs.output.child e.runtime).child name) ≠ t.goal true (e.archive c)

/-- A place to which a native library of a plan is copied. -/
def TakesLibrary (c : BuildContext) (e : ExecutableNode) (plan : BundlePlan) (p : Path) : Prop :=
  ∃ library ∈ plan.native, ∃ name, library.fileName? = some name ∧
    p = (c.dirs.output.child e.runtime).child name

theorem runtime_of_buildAll {answer : List Path × Option Path}
    (h : (buildAll c).result e w = (.ok answer, e', w')) :
    e'.standalone = e.standalone ∧ e'.runtime = e.runtime := by
  have settings := buildAll_keepsPart c e w
  rw [h] at settings
  obtain ⟨-, standalone, dir⟩ : e'.name = e.name ∧ e'.standalone = e.standalone ∧
      e'.runtimeDir = e.runtimeDir := by simpa [ExecutableNode.settings] using settings
  exact ⟨standalone, by rw [runtime, dir, runtime]⟩

/-- A standalone executable that is built has packed its members, and then copied the libraries of its
plan. -/
theorem exists_packed (standalone : e.standalone = true)
    (built : (process c).result e w = (.ok (), e', w')) :
    ∃ planned packed w₁ l all mark targets,
      ((plan c).result e w).1 = .ok planned ∧ ((members c).result e w).1 = .ok packed ∧
      w₁.files.at? (e.archive c) = .ok (l, .file (.archive all) mark) ∧
      Archive.names all = packed.map (·.name) ∧
      (planned.native.filterMapM
        (Bundle.copyLibrary (c.dirs.output.child e.runtime))).result w₁ = (.ok targets, w') := by
  obtain ⟨⟨sources, script⟩, e₁, w₁, assembled, linked⟩ := bind_eq_ok built
  obtain ⟨standalone₁, runtime₁⟩ := runtime_of_buildAll assembled
  obtain ⟨w₂, found, w₃, bundle, compiled, traced, packs⟩ :=
    link_eq_ok (standalone₁.trans standalone) linked
  rw [runtime₁] at packs
  obtain ⟨packed, w₄, w₅, l, all, mark, gathered, archive, there, names, copied⟩ :=
    Bundle.exists_gather_of_pack packs
  rw [archive] at there
  have plans : (plan c).result e w =
      (.ok (BundlePlan.ofDependencies c.layout found), e₁, w₃) := by
    simp only [plan, result_bind, assembled, result_part, result_lift, compiled, traced,
      result_pure]
  have gathers : ((members c).result e w).1 = .ok packed := by
    simp only [members, result_bind, plans, result_part, result_lift, runtime₁, gathered]
  exact ⟨_, packed, w₅, l, all, mark, bundle.native, by rw [plans], gathers, there, names, copied⟩

/-- The archive of a standalone executable that is built holds its members, unless a library was copied
over it. -/
theorem archive_of_process (standalone : e.standalone = true)
    (apart : ∀ planned, ((plan c).result e w).1 = .ok planned → e.NativeApart c planned w'.files)
    (built : (process c).result e w = (.ok (), e', w')) :
    ∃ packed l all mark, ((members c).result e w).1 = .ok packed ∧
      w'.files.at? (e.archive c) = .ok (l, .file (.archive all) mark) ∧
      Archive.names all = packed.map (·.name) := by
  obtain ⟨planned, packed, w₁, l, all, mark, targets, plans, gathers, there, names, copied⟩ :=
    exists_packed standalone built
  have steady : Workspace.Steady (fun w => Changed
      (fun l => ∃ p, e.TakesLibrary c planned p ∧ w₁.files.goal true p = some l) (fun _ => False)
      w₁.files w.files) (e.TakesLibrary c planned) :=
    Workspace.steady_changed fun p l hp heads => ⟨p, hp, heads⟩
  have changed := (Action.preserves_filterMapM (fun library (hl : library ∈ planned.native) =>
    Bundle.preserves_copyLibrary steady fun name named => ⟨library, hl, name, named, rfl⟩)
    w₁ (.refl _)).1
  rw [copied] at changed
  refine ⟨packed, l, all, mark, gathers, ?_, names⟩
  refine changed.at?_file there fun l heads => ⟨?_, not_false⟩
  rintro ⟨_, ⟨library, hl, name, named, rfl⟩, same⟩
  have other := apart planned plans library hl name named
  rw [changed.goal, changed.goal, heads] at other
  exact other same

end ExecutableNode

/-! ## What a run leaves -/

/-- Nodes that are built within a footprint from a workspace neither write nor remove the file that a
path heads for. -/
structure Footprint.Spares (f : Footprint) (c : BuildContext) (clean : Bool) (after : List Node)
    (w : Workspace) (p : Path) : Prop where
  inside : ∀ node ∈ after, node.Inside c f
  artifacts : clean = true → ∀ q ∈ w.artifacts, f.records q
  plain : f.Plain clean w.files
  apart : ∀ l, w.files.goal true p = some l →
    ¬f.Written w.files l ∧ ¬f.Removed clean w.files l

/-- A name is stored in the archive that a path leads to. -/
def FileTree.Stores (t : FileTree) (p : Path) (name : Text) : Prop :=
  ∃ l all mark, t.at? p = .ok (l, .file (.archive all) mark) ∧ name ∈ Archive.names all

theorem FileTree.stores_iff {t : FileTree} {p : Path} {name : Text} {l : Location} {all : Archive}
    {mark : Bool} (there : t.at? p = .ok (l, .file (.archive all) mark)) :
    t.Stores p name ↔ name ∈ all.names := by
  constructor
  · rintro ⟨l', all', mark', there', mem⟩
    rw [there] at there'
    obtain ⟨-, same⟩ := Prod.mk.inj (Except.ok.inj there')
    obtain ⟨same, -⟩ := Entry.file.inj same
    exact Content.archive.inj same ▸ mem
  · exact fun mem => ⟨l, all, mark, there, mem⟩

namespace ExecutableNode

variable {clean : Bool} {nodes nodes' after rest : List Node} {e last : ExecutableNode}
  {v v' : Workspace} {f : Footprint}

/-- At the end of a run, what a standalone executable needed is in the archive of its runtime directory
exactly as far as the last executable that shares the archive packed it too. -/
theorem stored_iff_packed_last (orderly : c.Orderly f.strays)
    (ran : (Node.processAll c clean).result nodes w = (.ok (), nodes', w'))
    (needs : Node.Turn c clean nodes w (.executable e) v v' rest) (standalone : e.standalone = true)
    (packs : Node.Turn c clean nodes w (.executable last) w₁ w₂ after)
    (standaloneLast : last.standalone = true)
    (shared : w'.files.at? (e.archive c) = w'.files.at? (last.archive c))
    (apart : ∀ planned, ((plan c).result last w₁).1 = .ok planned →
      last.NativeApart c planned w₂.files)
    (spared : f.Spares c clean after w₂ (last.archive c)) :
    ∃ needed packed, ((members c).result e v).1 = .ok needed ∧
      ((members c).result last w₁).1 = .ok packed ∧
      ∀ s ∈ needed, w'.files.Stores (e.archive c) s.name ↔ s.name ∈ packed.map (·.name) := by
  obtain ⟨_, built⟩ := needs.executable
  obtain ⟨_, builtLast⟩ := packs.executable
  obtain ⟨_, needed, _, _, _, _, _, -, gathers, -⟩ :=
    exists_packed standalone built
  obtain ⟨packed, l, all, mark, gathersLast, there, names⟩ :=
    archive_of_process standaloneLast apart builtLast
  have changed := (packs.within orderly spared.plain spared.inside spared.artifacts ran).files
  have kept := changed.at?_file there spared.apart
  refine ⟨needed, packed, gathers, gathersLast, fun s _ => ?_⟩
  rw [← names]
  exact FileTree.stores_iff (shared.trans kept)

/-- What an interpreter logs that finds the module of a script's name in the library. -/
def importLog (command : Command) : Bytes :=
  Text.bytes ("inst/lib/python3.11/".toList ++ command.arguments.flatten.drop 2 ++
    "\nimport 'module' # loaded".toList)

/-- A host whose interpreter logs so. -/
def tracing : BuildContext :=
  { Sample.context with
    around := ⟨fun command _ t => (.ok ⟨.code 0, [], importLog command⟩, t), fun _ => none⟩
    layout := { BundlePlan.installed with requiredFiles := [] }
    toolchain := Sample.compiler }

/-- A standalone executable of one script. -/
def alone (script : String) : ExecutableNode where
  name := script.toList
  main := .script (Sample.script script.toList)
  parts := []
  standalone := true

/-- An installation with two modules in its library, and a file of notes. -/
def installation : Workspace where
  files := {
    entries := [(["inst"], .directory), (["inst", "lib"], .directory),
      (["inst", "lib", "python3.11"], .directory),
      (["inst", "lib", "python3.11", "a.py"], .file (.plain []) false),
      (["inst", "lib", "python3.11", "b.py"], .file (.plain []) false),
      (["notes"], .file (.plain []) false)].map fun (l, e) => (l.map String.toList, e) }

/-- Two executables that share the runtime directory, and data behind them. -/
def sharing : List Node :=
  [.executable (alone "a.py"), .executable (alone "b.py"),
    .data ⟨[⟨.resolve ⟨"notes".toList⟩ none⟩]⟩]

/-- The workspace in which the second executable starts. -/
def betweenShared : Workspace :=
  ((Node.processAndClean tracing true).result (.executable (alone "a.py")) installation).2.2

/-- The workspace that the second executable leaves. -/
def packed : Workspace :=
  ((Node.process tracing).result (.executable (alone "b.py")) betweenShared).2.2

/-- The workspace at the end. -/
def doneShared : Workspace :=
  ((Node.processAll tracing true).result sharing installation).2.2

/-- What is done after the second executable. -/
def copying : Footprint where
  writes := (· = ⟨"build/lib/notes".toList⟩)
  records := (· ∈ packed.artifacts)
  strays _ := False

theorem sharing_succeeds :
    ((Node.process tracing).result (.executable (alone "a.py")) installation).1 = .ok () ∧
      ((Node.processAndClean tracing true).result (.executable (alone "a.py")) installation).1 =
        .ok () ∧
      ((Node.process tracing).result (.executable (alone "b.py")) betweenShared).1 = .ok () ∧
      ((Node.processAll tracing true).result sharing installation).1 = .ok () := by
  decide +kernel

/-- The first executable needs one module, the second one packs the other alone. -/
theorem sharing_packs :
    ((members tracing).result (alone "a.py") installation).1 =
        .ok [⟨⟨"inst/lib/python3.11/a.py".toList⟩, "a.py".toList⟩] ∧
      ((plan tracing).result (alone "b.py") betweenShared).1.toOption.map (·.native) = some [] ∧
      doneShared.files.at? ((alone "a.py").archive tracing) =
        .ok (["build", "lib", "bin", "python.zip"].map String.toList,
          .file (.archive [⟨"b.py".toList, []⟩]) false) := by
  decide +kernel

theorem turn_first : ∃ finish after, Node.Turn tracing true sharing installation
    (.executable (alone "a.py")) installation finish after :=
  ⟨_, _, ⟨[], [], [], rfl, rfl⟩, _, result_eq_of_ok sharing_succeeds.1⟩

theorem turn_second : Node.Turn tracing true sharing installation (.executable (alone "b.py"))
    betweenShared packed [.data ⟨[⟨.resolve ⟨"notes".toList⟩ none⟩]⟩] := by
  obtain ⟨-, first, second, -⟩ := sharing_succeeds
  have passed := each_singleton (result_eq_of_ok first)
  exact ⟨⟨_, _, _, rfl, passed⟩, _, result_eq_of_ok second⟩

theorem spares_archive : copying.Spares tracing true [.data ⟨[⟨.resolve ⟨"notes".toList⟩ none⟩]⟩]
    packed ((alone "b.py").archive tracing) := by
  have places : (∀ p ∈ packed.artifacts, packed.files.goal false p = packed.files.goal true p ∧
        packed.files.goal true p ≠ packed.files.goal true ((alone "b.py").archive tracing)) ∧
      packed.files.goal true ⟨"build/lib/notes".toList⟩ ≠
        packed.files.goal true ((alone "b.py").archive tracing) := by
    decide +kernel
  refine ⟨?_, fun _ _ => id, fun _ p hp => (places.1 p hp).1, fun l heads => ⟨?_, ?_⟩⟩
  · intro node hn
    obtain rfl := List.mem_singleton.mp hn
    exact ⟨nofun, nofun, fun u hu => List.mem_singleton.mp hu ▸ rfl⟩
  · rintro (⟨p, rfl, same⟩ | none)
    · exact places.2 (same.trans heads.symm)
    · exact none
  · rintro ⟨-, p, hp, same⟩
    exact (places.1 p hp).2 (same.trans heads.symm)

theorem stored_iff_packed_last_sharing :
    ∃ needed packed, ((members tracing).result (alone "a.py") installation).1 = .ok needed ∧
      ((members tracing).result (alone "b.py") betweenShared).1 = .ok packed ∧
      ∀ s ∈ needed, doneShared.files.Stores ((alone "a.py").archive tracing) s.name ↔
        s.name ∈ packed.map (·.name) := by
  obtain ⟨_, _, first⟩ := turn_first
  have orderly : tracing.Orderly copying.strays := Sample.orderly rfl rfl fun _ _ _ => rfl
  refine stored_iff_packed_last orderly (result_eq_of_ok sharing_succeeds.2.2.2) first rfl
    turn_second rfl rfl (fun planned plans library hl => ?_) spares_archive
  have native := sharing_packs.2.1
  rw [plans] at native
  have none : planned.native = [] := Option.some.inj native
  exact absurd (none ▸ hl) List.not_mem_nil

/-- The module that the first executable needs is not in the archive that the second has packed
anew. -/
theorem not_stored_sharing :
    ∃ nodes' w' finish after needed,
      (Node.processAll tracing true).result sharing installation = (.ok (), nodes', w') ∧
      Node.Turn tracing true sharing installation (.executable (alone "a.py")) installation finish
        after ∧
      (alone "a.py").standalone = true ∧
      (alone "a.py").main = .script (Sample.script "a.py".toList) ∧
      ((members tracing).result (alone "a.py") installation).1 = .ok needed ∧
      ∃ s ∈ needed, ¬w'.files.Stores ((alone "a.py").archive tracing) s.name := by
  obtain ⟨finish, after, turn⟩ := turn_first
  obtain ⟨needs, -, there⟩ := sharing_packs
  have ran := result_eq_of_ok sharing_succeeds.2.2.2
  refine ⟨_, doneShared, finish, after, _, ran, turn, rfl, rfl, needs, _,
    List.mem_singleton_self _, fun stored => ?_⟩
  have names := (FileTree.stores_iff there).mp stored
  revert names
  decide

end ExecutableNode

end NativeFreeze
