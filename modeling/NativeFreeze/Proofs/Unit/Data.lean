import NativeFreeze.Proofs.Footprint
import NativeFreeze.Proofs.FileTree.Copies
import NativeFreeze.Proofs.Path.Components

/-!
# Clones of data files

A data file is cloned to the output root joined with the path as it was given, and read from the home
directory joined with the same path. The clone stays below the output root unless the path has an upward
step or is absolute. A copy empties its target before it reads, so where both joins head for one place
nothing is left of the file.
-/

namespace NativeFreeze

namespace Path

variable {root p : Path}

/-- `p` lies below `root`, and no upward step leads out again. -/
def Inside (p root : Path) : Prop :=
  ∃ rest, p.components = root.components ++ rest ∧ .up ∉ rest

theorem up_mem_trail_iff : .up ∈ trail p.text ↔ .up ∈ p.components := by
  rw [components_eq, List.mem_append]
  cases (parse p.text).1 <;> simp [Anchor.components]

/-- A relative path stays inside what it is joined to exactly if it has no upward step. -/
theorem inside_join_iff (relative : p.isAbsolute = false) :
    (root.join p).Inside root ↔ .up ∉ p.components := by
  by_cases empty : root.text = []
  · have itself : root.join p = p := by simp [join, empty]
    have none : root.components = [] := by
      obtain ⟨text⟩ := root
      obtain rfl : text = [] := empty
      rfl
    simp [Inside, itself, none]
  · simp [Inside, components_join empty relative, up_mem_trail_iff]

end Path

namespace FileTree

variable {t t' : FileTree} {source target : Path}

/-- What is left of a file that is copied: all of it in both places, or nothing where these are one. -/
theorem read_copy (h : t.copy source target = .ok t') :
    ∃ bytes, t.read source = .ok bytes ∧ ∀ p ∈ [target, source],
      t'.read p = .ok (if t.goal true target = t.goal true source then [] else bytes) := by
  obtain ⟨l, content, mark, place, there, found, file, rfl⟩ := copy_eq_ok h
  obtain ⟨below, free⟩ := Wrote.isFree found file
  refine ⟨content.bytes, by rw [read, there], ?_⟩
  rw [goal_of_find found, goal_of_at? there, List.forall_mem_cons, List.forall_mem_singleton]
  have here {p : Path} {q : Place} (leads : t.find true p = .ok q)
      (same : q.location = place.location) (new : Content) :
      (t.put place.location (.file new mark)).at? p = .ok (place.location, .file new mark) := by
    rw [at?_eq_ok_iff, find_put below free leads, Place.after, if_pos same]
  by_cases same : place.location = l
  · subst same
    simp [read, here found rfl, here (at?_eq_ok_iff.mp there) rfl, Content.bytes]
  · have elsewhere : (t.put place.location (.file content mark)).at? source =
        .ok (l, .file content mark) := by
      rw [at?_eq_ok_iff, find_put below free (at?_eq_ok_iff.mp there), Place.after]
      exact congrArg Except.ok (if_neg (Ne.symm same))
    simp [read, here found rfl, elsewhere, same]

end FileTree

namespace DataUnit

open NativeFreeze.Action

variable {input : Path} {home : Option Path} {root target : Path} {u : DataUnit}
  {w₀ w w₁ w' : Workspace}

/-- A unit is made of a file that is there, and changes nothing. -/
theorem ofPath_eq_ok (made : (ofPath input home).result w = (.ok u, w₁)) :
    u.source = .resolve input home ∧ w₁ = w ∧ ∃ l e, w.files.at? u.source.path = .ok (l, e) := by
  simp only [ofPath, result_bind, result_files] at made
  split at made
  · rename_i there
    obtain ⟨answer, rfl⟩ := Prod.mk.inj made
    obtain rfl := Except.ok.inj answer
    refine ⟨rfl, rfl, ?_⟩
    cases led : w.files.at? (Source.resolve input home).path with
    | ok found => exact ⟨found.1, found.2, rfl⟩
    | error e => simp [FileTree.isThere, led, Except.isOk, Except.toBool] at there
  · simp at made

/-- Cloning makes the directories above the target and then copies the file. -/
theorem cloneInto_eq_ok (cloned : (u.cloneInto root).result w = (.ok target, w')) :
    target = root.join u.source.input ∧ ∃ t, FileTree.Extends w.files t ∧
      (∀ p, t.goal true p = w.files.goal true p) ∧
      t.copy u.source.path target = .ok w'.files := by
  have copies {ready : Workspace} (h : (do
      Action.change (some (.copying u.source.path (root.join u.source.input)))
        (·.copy u.source.path (root.join u.source.input))
      return root.join u.source.input : Action Path).result ready = (.ok target, w')) :
      target = root.join u.source.input ∧
        ready.files.copy u.source.path target = .ok w'.files := by
    obtain ⟨⟨⟩, copied, changed, h⟩ := Action.bind_eq_ok h
    obtain ⟨answer, rfl⟩ := Prod.mk.inj h
    obtain rfl := Except.ok.inj answer
    exact ⟨rfl, Action.files_of_change changed⟩
  obtain ⟨⟨⟩, noted, note, cloned⟩ := Action.bind_eq_ok cloned
  obtain rfl : _ = noted := congrArg Prod.snd note
  dsimp only at cloned
  split at cloned
  · rename_i above _
    obtain ⟨⟨⟩, ready, making, cloned⟩ := Action.bind_eq_ok cloned
    obtain ⟨named, copied⟩ := copies cloned
    rw [result_makeAll] at making
    have files : ready.files = (w.files.makeAll above).2 :=
      congrArg Workspace.files (Prod.mk.inj making).2.symm
    have changed : FileTree.Changed (fun _ => False) (fun _ => False) w.files ready.files :=
      files ▸ .makeAll above
    exact ⟨named, ready.files, files ▸ .makeAll above, changed.goal true, copied⟩
  · obtain ⟨named, copied⟩ := copies cloned
    exact ⟨named, w.files, .refl _, fun _ => rfl, copied⟩

/-- A clone as it should be: it stands inside the output root and holds what the source held, as the
source still does. -/
structure Faithful (root target source : Path) (before after : FileTree) : Prop where
  inside : target.Inside root
  kept : ∃ bytes, before.read source = .ok bytes ∧
    after.read target = .ok bytes ∧ after.read source = .ok bytes

/-- A clone is as it should be exactly if the path, as it was given, stays inside the output root and the
file is not cloned to the place where it stands, unless it is empty. -/
theorem faithful_iff (made : (ofPath input home).result w = (.ok u, w₁))
    (cloned : (u.cloneInto root).result w₁ = (.ok target, w')) :
    target = root.join input ∧ u.source.path = (Source.resolve input home).path ∧
      (Faithful root target u.source.path w.files w'.files ↔
        (if input.isAbsolute then input.Inside root else .up ∉ input.components) ∧
          (w.files.goal true target = w.files.goal true u.source.path →
            w.files.read u.source.path = .ok [])) := by
  obtain ⟨given, rfl, l, e, led⟩ := ofPath_eq_ok made
  obtain ⟨named, t, more, goals, copied⟩ := cloneInto_eq_ok cloned
  obtain ⟨bytes, held, left⟩ := FileTree.read_copy copied
  have before : w₁.files.read u.source.path = .ok bytes := by
    rw [← held, FileTree.read, FileTree.read, led, more.at? led]
  rw [goals, goals, List.forall_mem_cons, List.forall_mem_singleton] at left
  have inside : target.Inside root ↔
      if input.isAbsolute then input.Inside root else .up ∉ input.components := by
    rw [named, given]
    cases absolute : input.isAbsolute with
    | true => simp [Source.resolve, absolute]
    | false => simpa [Source.resolve] using Path.inside_join_iff absolute
  have kept : (∃ bytes, w₁.files.read u.source.path = .ok bytes ∧ w'.files.read target = .ok bytes ∧
      w'.files.read u.source.path = .ok bytes) ↔
      (w₁.files.goal true target = w₁.files.goal true u.source.path →
        w₁.files.read u.source.path = .ok []) := by
    rw [before, left.1, left.2]
    by_cases same : w₁.files.goal true target = w₁.files.goal true u.source.path
    · simp [same, eq_comm]
    · simp [same]
  refine ⟨by rw [named, given]; rfl, congrArg Source.path given, ?_⟩
  rw [← inside, ← kept]
  exact ⟨fun h => ⟨h.inside, h.kept⟩, fun h => ⟨h.1, h.2⟩⟩

/-- A workspace with a file at its root and another in a directory. -/
def Sample.resources : Workspace where
  files := { entries := [
    (["a.txt".toList], .file (.plain (Text.bytes "A".toList)) false),
    (["src".toList], .directory),
    (["src".toList, "b.txt".toList], .file (.plain (Text.bytes "B".toList)) false)] }

/-- The unit of the file in the directory. -/
def Sample.filed : DataUnit := ⟨.resolve ⟨"b.txt".toList⟩ (some ⟨"src".toList⟩)⟩

/-- The unit of the file at the root. -/
def Sample.loose : DataUnit := ⟨.resolve ⟨"a.txt".toList⟩ none⟩

theorem faithful_iff_filed :
    (ofPath ⟨"b.txt".toList⟩ (some ⟨"src".toList⟩)).result Sample.resources =
        (.ok Sample.filed, Sample.resources) ∧
      ∃ w, (Sample.filed.cloneInto ⟨"out".toList⟩).result Sample.resources =
          (.ok ⟨"out/b.txt".toList⟩, w) ∧
        Faithful ⟨"out".toList⟩ ⟨"out/b.txt".toList⟩ Sample.filed.source.path
          Sample.resources.files w.files := by
  have made : (ofPath ⟨"b.txt".toList⟩ (some ⟨"src".toList⟩)).result Sample.resources =
      (.ok Sample.filed, Sample.resources) := rfl
  have cloned : ((Sample.filed.cloneInto ⟨"out".toList⟩).result Sample.resources).1 =
      .ok ⟨"out/b.txt".toList⟩ := by decide +kernel
  have apart : Sample.resources.files.goal true ⟨"out/b.txt".toList⟩ ≠
      Sample.resources.files.goal true Sample.filed.source.path := by decide +kernel
  have inner : Path.Component.up ∉ (⟨"b.txt".toList⟩ : Path).components := by decide +kernel
  obtain ⟨-, -, faithful⟩ := faithful_iff made (result_eq_of_ok cloned)
  exact ⟨made, _, result_eq_of_ok cloned, faithful.mpr ⟨inner, fun same => absurd same apart⟩⟩

/-- A file that is cloned into the directory where it stands is emptied. -/
theorem not_faithful_loose :
    (ofPath ⟨"a.txt".toList⟩ none).result Sample.resources = (.ok Sample.loose, Sample.resources) ∧
      ∃ w, (Sample.loose.cloneInto ⟨".".toList⟩).result Sample.resources =
          (.ok ⟨"./a.txt".toList⟩, w) ∧
        ¬ Faithful ⟨".".toList⟩ ⟨"./a.txt".toList⟩ Sample.loose.source.path
          Sample.resources.files w.files := by
  have cloned : ((Sample.loose.cloneInto ⟨".".toList⟩).result Sample.resources).1 =
      .ok ⟨"./a.txt".toList⟩ := by decide +kernel
  have held : Sample.resources.files.read Sample.loose.source.path =
      .ok (Text.bytes "A".toList) := by decide +kernel
  have left : ((Sample.loose.cloneInto ⟨".".toList⟩).result Sample.resources).2.files.read
      Sample.loose.source.path = .ok [] := by decide +kernel
  refine ⟨rfl, _, result_eq_of_ok cloned, ?_⟩
  intro faithful
  obtain ⟨bytes, before, -, after⟩ := faithful.kept
  have same : Text.bytes "A".toList = [] :=
    Except.ok.inj ((held.symm.trans before).trans (after.symm.trans left))
  exact absurd same (by decide +kernel)

end DataUnit

end NativeFreeze
