import NativeFreeze.Proofs.Node.Turns

/-!
# What a failed build leaves behind

A build that fails can be cleaned up if each file that it made is remembered. Files of turns that are
over are, so all depends on the turn in which the build stops: what was written there is not remembered
unless some earlier artifact stands in the same place. Cleaning up removes what is remembered.
-/

namespace NativeFreeze

open NativeFreeze.Action FileTree

variable {c : BuildContext} {strays : Location → Prop} {node node' : Node} {w w' : Workspace}

/-- Each of some files that was made or changed on the way to `w'` is remembered there: an artifact
heads for the place where it stands. -/
def Workspace.Accounts (w w' : Workspace) (files : List Path) : Prop :=
  ∀ p ∈ files, ∀ l content mark, w.files.goal true p = some l →
    w'.files.get? l = some (.file content mark) → w.files.get? l ≠ some (.file content mark) →
      ∃ q ∈ w'.artifacts, w.files.goal true q = some l

theorem Workspace.Accounts.subset {files more : List Path} (h : w.Accounts w' more)
    (part : files ⊆ more) : w.Accounts w' files :=
  fun p hp => h p (part hp)

/-- A node whose remembered files stand where nothing else of its build goes. -/
def Node.Clear (c : BuildContext) (strays : Location → Prop) (t : FileTree) (node : Node) : Prop :=
  ∀ p ∈ (node.turns c).flatten, ∀ l, t.goal true p = some l →
    ¬strays l ∧ ∀ q, node.Puts c q → t.goal true q ≠ some l

/-- What changed in a run that took some of its turns is remembered, or is a file of the turn in which
it stopped. -/
theorem Footprint.Took.accounts {α : Type} {f : Footprint} {turns done rest : List (List Path)}
    {r : Except Failure α × Workspace}
    (took : f.Took w.files turns w.artifacts r done rest)
    (clear : ∀ p ∈ turns.flatten, ∀ l, w.files.goal true p = some l →
      ¬f.strays l ∧ ∀ q, f.writes q → w.files.goal true q ≠ some l) :
    w.Accounts r.2 turns.flatten ↔ w.Accounts r.2 (rest.headD []) := by
  constructor
  · refine fun all => all.subset fun p hp => ?_
    rw [took.turns_eq, List.flatten_append]
    cases rest with
    | nil => exact absurd hp List.not_mem_nil
    | cons turn rest => exact List.mem_append_right _ (List.mem_append_left _ hp)
  · intro last p hp l content mark heads there before
    obtain ⟨unstrayed, unput⟩ := clear p hp l heads
    have written := Classical.not_not.mp fun unwritten =>
      before (took.known.within.files.news l content mark there unwritten)
    rcases written with ⟨q, known | other, hq⟩ | stray
    · rcases List.mem_append.mp known with remembered | begun
      · exact ⟨q, took.known.artifacts ▸ remembered, hq⟩
      · exact last q begun l content mark hq there before
    · exact absurd hq (unput q other)
    · exact absurd stray unstrayed

namespace Node

/-- However a build ends, it has remembered the files of some first turns and no others, and each file
that it made or changed is remembered exactly if those of the next turn are. -/
theorem accounts_iff (orderly : c.Orderly strays) (answers : c.toolchain.AnswersObjects)
    (clear : node.Clear c strays w.files) {answer : Except Failure Unit}
    (ran : (process c).result node w = (answer, node', w')) :
    ∃ done rest, node.turns c = done ++ rest ∧ w'.artifacts = w.artifacts ++ done.flatten ∧
      (answer = .ok () → rest = []) ∧
      (w.Accounts w' (node.turns c).flatten ↔ w.Accounts w' (rest.headD [])) := by
  have start : (node.others c strays).Known w.files w.artifacts w.artifacts w :=
    ⟨.start nofun, rfl⟩
  obtain ⟨⟨done, rest, took⟩, -⟩ := takes_process orderly answers node w.artifacts w start
  have after : (((process c).toAction node).result w).2 = w' := by
    rw [Stage.result_toAction, ran]
    cases answer <;> rfl
  refine ⟨done, rest, took.turns_eq, ?_, fun succeeds => ?_, ?_⟩
  · rw [← after, took.known.artifacts]
  · refine took.all ((), node') ?_
    rw [Stage.result_toAction, ran, succeeds]
  · rw [← after]
    exact took.accounts clear

/-- Sample tools that have drifted apart: the source that the transpiler writes lacks the markers of the
contract. -/
def drifted : BuildContext :=
  { Sample.tools with transpiler := { Sample.transpiler with contract := .cython } }

/-- A package of a descriptor that is generated and a script. -/
def labelled : Node :=
  .module {
    name := "b".toList
    units := [
      .descriptor ⟨⟨"main.rc".toList⟩, some {}⟩,
      .script (Sample.script "a/b.py".toList)]
    package := true }

/-- The build of `labelled` with drifted tools. -/
def driftedBuild : Except Failure Unit × Node × Workspace :=
  (process drifted).result labelled Sample.start

theorem labelled_turns :
    labelled.turns drifted =
      [["main.rc"], ["a/b.cpp"], ["build/temp/Release/main.rc.o", "build/temp/Release/a/b.cpp.o"]].map
        (·.map fun p => ⟨p.toList⟩) := by
  decide +kernel

theorem labelled_clear : labelled.Clear drifted (fun _ => False) Sample.start.files := by
  intro p hp l heads
  refine ⟨not_false, fun q puts => ?_⟩
  obtain rfl : q = ⟨"build/lib/b.so".toList⟩ := by
    cases puts with
    | library => decide +kernel
    | copy part unit =>
      simp only [labelled, parts, List.map_cons, List.map_nil, List.mem_cons, List.not_mem_nil,
        or_false] at part
      rcases part with rfl | rfl <;> exact absurd unit List.not_mem_nil
  rw [← heads]
  rw [labelled_turns] at hp
  simp only [List.map_cons, List.map_nil, List.flatten_cons, List.flatten_nil, List.cons_append,
    List.nil_append, List.mem_cons, List.not_mem_nil, or_false] at hp
  rcases hp with rfl | rfl | rfl | rfl <;> decide +kernel

theorem accounts_iff_labelled :
    ∃ done rest, labelled.turns drifted = done ++ rest ∧
      driftedBuild.2.2.artifacts = Sample.start.artifacts ++ done.flatten ∧
      (driftedBuild.1 = .ok () → rest = []) ∧
      (Sample.start.Accounts driftedBuild.2.2 (labelled.turns drifted).flatten ↔
        Sample.start.Accounts driftedBuild.2.2 (rest.headD [])) := by
  have orderly : drifted.Orderly fun _ => False := Sample.orderly rfl rfl fun _ _ _ => rfl
  have ran : (process drifted).result labelled Sample.start =
      (driftedBuild.1, driftedBuild.2.1, driftedBuild.2.2) := by
    rw [driftedBuild]
  exact accounts_iff orderly Sample.compiler_answersObjects labelled_clear ran

/-- The generated source of the script is written, but not remembered. -/
theorem not_accounts_drifted :
    driftedBuild.1 = .error
        ⟨.templateDrift ⟨"a/b.cpp".toList⟩ SourceContract.cython.packageMarker, none⟩ ∧
      ¬Sample.start.Accounts driftedBuild.2.2 (labelled.turns drifted).flatten := by
  refine ⟨by decide +kernel, fun all => ?_⟩
  obtain ⟨q, remembered, heads⟩ := all ⟨"a/b.cpp".toList⟩ (by decide +kernel)
    ["a".toList, "b.cpp".toList] (.plain Sample.code.bytes) false (by decide +kernel)
    (by decide +kernel) (by decide +kernel)
  have only : driftedBuild.2.2.artifacts = [⟨"main.rc".toList⟩] := by decide +kernel
  rw [only] at remembered
  obtain rfl := List.mem_singleton.mp remembered
  revert heads
  decide +kernel

end Node

/-! ## Cleaning up -/

/-- A tree that came of another by removing files: whatever was removed is not there. -/
abbrev Cleared (t t' : FileTree) : Prop :=
  Changed (fun _ => False) (fun l => t'.get? l = none) t t'

variable {t : FileTree} {p : Path} {l : Location} {content : Content} {mark : Bool}

/-- An artifact that was a file is not there when its turn to be removed is over. -/
theorem removeArtifact_eq_ok (cleared : Cleared t w.files)
    (plain : t.goal false p = t.goal true p)
    (removed : (removeArtifact p).result w = (.ok (), w')) :
    Cleared t w'.files ∧ (∀ l, w.files.get? l = none → w'.files.get? l = none) ∧
      (t.at? p = .ok (l, .file content mark) → w'.files.get? l = none) := by
  have gone : w.files.isFile p = false → t.at? p = .ok (l, .file content mark) →
      w.files.get? l = none := by
    intro missing led
    by_contra there
    obtain ⟨e, led', rfl | ⟨-, file⟩⟩ := cleared.at? led fun _ => there
    · simp [isFile, led', Entry.isFile] at missing
    · simp [isFile, led', file] at missing
  rcases removeArtifact_cases p w with
    ⟨missing, turn⟩ | ⟨file, w₁, -, ⟨erased, turn⟩ | ⟨e, -, -, turn⟩⟩
  · obtain rfl : w = w' := congrArg Prod.snd (turn.symm.trans removed)
    exact ⟨cleared, fun _ => id, gone missing⟩
  · obtain rfl : w₁ = w' := congrArg Prod.snd (turn.symm.trans removed)
    have unlinked : w.files.goal false p = w.files.goal true p := by
      rw [cleared.goal, cleared.goal, plain]
    obtain ⟨k, _, _, led, below, less⟩ := remove_file_eq_ok erased file unlinked
    have stays : ∀ l, w.files.get? l = none → w₁.files.get? l = none := by
      intro l absent
      rw [less, get?_erase below, absent, ite_self]
    have heads : ∀ l, w.files.goal true p = some l → w₁.files.get? l = none := by
      intro l heads
      obtain rfl : k = l := Option.some.inj ((goal_of_at? led).symm.trans heads)
      rw [less, get?_erase below, if_pos rfl]
    refine ⟨(cleared.mono (fun _ => id) stays).trans (.remove erased file unlinked heads), stays,
      fun led => heads l ?_⟩
    rw [cleared.goal]
    exact goal_of_at? led
  · simp [turn] at removed

theorem forM_removeArtifact_eq_ok {artifacts : List Path} (cleared : Cleared t w.files)
    (plain : ∀ p ∈ artifacts, t.goal false p = t.goal true p)
    (removed : (artifacts.forM removeArtifact).result w = (.ok (), w')) :
    (∀ l, w.files.get? l = none → w'.files.get? l = none) ∧
      ∀ p ∈ artifacts, t.at? p = .ok (l, .file content mark) → w'.files.get? l = none := by
  induction artifacts generalizing w with
  | nil =>
    obtain rfl : w = w' := congrArg Prod.snd removed
    exact ⟨fun _ => id, nofun⟩
  | cons p artifacts ih =>
    obtain ⟨plain, others⟩ := List.forall_mem_cons.mp plain
    obtain ⟨⟨⟩, w₁, first, later⟩ := Action.bind_eq_ok removed
    obtain ⟨cleared, absent, gone⟩ := removeArtifact_eq_ok cleared plain first
    obtain ⟨absent', gone'⟩ := ih cleared others later
    exact ⟨fun l here => absent' l (absent l here),
      List.forall_mem_cons.mpr ⟨fun led => absent' l (gone led), gone'⟩⟩

/-- Cleaning up removes each file that an artifact leads to, unless an artifact is a link. -/
theorem cleanArtifacts_eq_ok (plain : ∀ p ∈ w.artifacts, w.files.goal false p = w.files.goal true p)
    (cleaned : cleanArtifacts.result w = (.ok (), w')) (remembered : p ∈ w.artifacts)
    (led : w.files.at? p = .ok (l, .file content mark)) : w'.files.get? l = none := by
  rw [result_cleanArtifacts] at cleaned
  have start : Cleared w.files { w with artifacts := [] }.files := .refl _
  exact (forM_removeArtifact_eq_ok start plain cleaned).2 p remembered led

end NativeFreeze
