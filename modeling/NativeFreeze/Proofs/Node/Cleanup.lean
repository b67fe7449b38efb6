import NativeFreeze.Node.Context
import NativeFreeze.Proofs.FileTree.Footprint
import NativeFreeze.Proofs.Workspace

/-!
# Cleaning up

Artifacts are removed one after the other, up to the first that cannot be removed. Each turn takes away
one entry, so an artifact that is no file at its turn is none later. All artifacts are forgotten before
the first turn: those left behind by a removal that fails are never removed.
-/

namespace NativeFreeze

open NativeFreeze.Action FileTree

namespace FileTree

variable {t : FileTree} {l : Location} {e : Entry} {p : Path}

theorem Extends.erase (below : l ≠ []) : Extends (t.erase l) t where
  entries k d there := by
    rw [get?_erase below] at there
    by_cases here : k = l
    · simp [here] at there
    · simpa [here] using there
  workingDirectory := rfl

theorem Extends.isFile_eq_false {t' : FileTree} (more : Extends t' t) (missing : t.isFile p = false) :
    t'.isFile p = false := by
  by_contra file
  have before := more.isFile (by simpa using file)
  simp [missing] at before

/-- A path that leads somewhere names an entry, be it a link. -/
theorem exists_linkAt?_of_at? (h : t.at? p = .ok (l, e)) : ∃ k d, t.linkAt? p = .ok (k, d) := by
  have walked : ∀ links k steps, walk t true links k steps = .ok (.taken l e) →
      ∃ k' d, walk t false links k steps = .ok (.taken k' d) := by
    intro links
    induction links with
    | zero => intro k steps h; simp [walk] at h
    | succ links again =>
      intro k steps h
      have along : ∃ k' d, Followed t false (walk t false links) k steps (.taken k' d) := by
        replace h : Followed t true (walk t true links) k steps (.taken l e) := followed_of_follow h
        induction steps generalizing k with
        | nil =>
          cases h with
          | here there => exact ⟨_, _, .here there⟩
        | cons step rest ih =>
          cases h with
          | stay directory on =>
            obtain ⟨k', d, on⟩ := ih _ on
            exact ⟨k', d, .stay directory on⟩
          | up directory on =>
            obtain ⟨k', d, on⟩ := ih _ on
            exact ⟨k', d, .up directory on⟩
          | link directory short there stop => exact absurd stop (by decide)
          | target directory short there go full on =>
            by_cases stop : rest = []
            · subst stop
              exact ⟨_, _, .link directory short there rfl⟩
            · obtain ⟨k', d, on⟩ := again _ _ on
              exact ⟨k', d, .target directory short there (absurd · stop) full on⟩
          | enter directory short there entry on =>
            obtain ⟨k', d, on⟩ := ih _ on
            exact ⟨k', d, .enter directory short there entry on⟩
      obtain ⟨k', d, on⟩ := along
      exact ⟨k', d, follow_of_followed on⟩
  have found := at?_eq_ok_iff.mp h
  have usable := usable_of_find found
  rw [find_eq_walk usable] at found
  obtain ⟨k, d, linked⟩ := walked _ _ _ found
  refine ⟨k, d, linkAt?_eq_ok_iff.mpr ?_⟩
  rw [find_eq_walk usable]
  exact linked

/-- A path whose entry is gone leads to no file, also where the entry was a link. -/
theorem isFile_erase (linked : t.linkAt? p = .ok (l, e)) (below : l ≠ []) :
    (t.erase l).isFile p = false := by
  by_contra file
  obtain ⟨k, d, led, -⟩ := exists_at?_of_isFile (by simpa using file)
  obtain ⟨k, d, named⟩ := exists_linkAt?_of_at? led
  obtain ⟨rfl, -⟩ : k = l ∧ d = e := by
    simpa [linked, eq_comm] using (Extends.erase below).linkAt? named
  have there : (t.erase k).get? k = some d := find_in (linkAt?_eq_ok_iff.mp named)
  simp [get?_erase below] at there

/-- `t'` is what is left of `t` when each of some paths was removed or was no file: the other entries
are as they were. -/
structure Swept (t : FileTree) (ps : List Path) (t' : FileTree) : Prop where
  rest : Extends t' t
  gone : ∀ p ∈ ps, t'.isFile p = false
  spared : ∀ l e, t.get? l = some e → t'.get? l = some e ∨ ∃ p ∈ ps, t.linkAt? p = .ok (l, e)

theorem Swept.refl (t : FileTree) : Swept t [] t :=
  ⟨.refl t, nofun, fun _ _ there => .inl there⟩

variable {t' t₁ : FileTree} {ps : List Path}

theorem Swept.skip (missing : t.isFile p = false) (later : Swept t ps t') :
    Swept t (p :: ps) t' where
  rest := later.rest
  gone := List.forall_mem_cons.mpr ⟨later.rest.isFile_eq_false missing, later.gone⟩
  spared l e there := by
    rcases later.spared l e there with kept | ⟨q, hq, named⟩
    · exact .inl kept
    · exact .inr ⟨q, List.mem_cons_of_mem p hq, named⟩

theorem Swept.remove (removed : t.remove p = .ok t₁) (later : Swept t₁ ps t') :
    Swept t (p :: ps) t' := by
  obtain ⟨k, d, linked, below, rfl⟩ := remove_eq_ok removed
  have less : Extends (t.erase k) t := .erase below
  constructor
  · exact later.rest.trans less
  · have missing := later.rest.isFile_eq_false (isFile_erase linked below)
    exact List.forall_mem_cons.mpr ⟨missing, later.gone⟩
  · intro l e there
    by_cases here : l = k
    · subst here
      have named : t.get? l = some d := find_in (linkAt?_eq_ok_iff.mp linked)
      rw [there] at named
      rw [← Option.some.inj named] at linked
      exact .inr ⟨p, List.mem_cons_self, linked⟩
    · have kept : (t.erase k).get? l = some e := by rw [get?_erase below, if_neg here, there]
      rcases later.spared l e kept with kept | ⟨q, hq, named⟩
      · exact .inl kept
      · exact .inr ⟨q, List.mem_cons_of_mem p hq, less.linkAt? named⟩

end FileTree

/-! ## Turns -/

variable {w : Workspace}

/-- How removing artifacts ends: all had their turn, or the removal of one that is a file was
refused. -/
inductive Stops (t : FileTree) : List Path → Except Failure Unit → Prop
  | finished : Stops t [] (.ok ())
  | refused {p rest e} (file : t.isFile p = true) (refusal : t.remove p = .error e) :
      Stops t (p :: rest) (.error ⟨.file e, some (.removing p)⟩)

/-- What a turn does: nothing, if the artifact is no file, and else it is removed or the removal is
refused. -/
theorem removeArtifact_cases (p : Path) (w : Workspace) :
    w.files.isFile p = false ∧ (removeArtifact p).result w = (.ok (), w) ∨
    w.files.isFile p = true ∧ ∃ w₁, w₁.artifacts = w.artifacts ∧
      (w.files.remove p = .ok w₁.files ∧ (removeArtifact p).result w = (.ok (), w₁) ∨
        ∃ e, w.files.remove p = .error e ∧ w₁.files = w.files ∧
          (removeArtifact p).result w = (.error ⟨.file e, some (.removing p)⟩, w₁)) := by
  simp only [removeArtifact, result_bind, result_files]
  cases file : w.files.isFile p with
  | false => exact .inl ⟨rfl, rfl⟩
  | true =>
    simp only [if_true, result_bind, result_note, result_change]
    refine .inr ⟨trivial, ?_⟩
    cases removed : w.files.remove p with
    | ok t => refine ⟨_, ?_, .inl ⟨?_, rfl⟩⟩ <;> rfl
    | error e => refine ⟨_, ?_, .inr ⟨e, rfl, ?_, rfl⟩⟩ <;> rfl

/-- The artifacts that had their turn are no files any more; the others had none. -/
theorem forM_removeArtifact {ps : List Path} {answer : Except Failure Unit} {w' : Workspace}
    (ran : (ps.forM removeArtifact).result w = (answer, w')) :
    ∃ done rest, ps = done ++ rest ∧ Swept w.files done w'.files ∧ Stops w'.files rest answer ∧
      w'.artifacts = w.artifacts := by
  induction ps generalizing w with
  | nil =>
    obtain ⟨rfl, rfl⟩ : .ok () = answer ∧ w = w' := Prod.mk.inj ran
    exact ⟨[], [], rfl, .refl _, .finished, rfl⟩
  | cons p ps ih =>
    have first : (removeArtifact p >>= fun _ => ps.forM removeArtifact).result w = (answer, w') := ran
    rw [result_bind] at first
    rcases removeArtifact_cases p w with
      ⟨missing, turn⟩ | ⟨file, w₁, kept, ⟨removed, turn⟩ | ⟨e, refusal, same, turn⟩⟩
    · rw [turn] at first
      obtain ⟨done, rest, split, swept, stops, kept⟩ := ih first
      exact ⟨p :: done, rest, by rw [split]; rfl, swept.skip missing, stops, kept⟩
    · rw [turn] at first
      obtain ⟨done, rest, split, swept, stops, kept'⟩ := ih first
      exact ⟨p :: done, rest, by rw [split]; rfl, swept.remove removed, stops, kept'.trans kept⟩
    · rw [turn] at first
      obtain ⟨rfl, rfl⟩ : .error _ = answer ∧ w₁ = w' := Prod.mk.inj first
      rw [same]
      exact ⟨[], p :: ps, rfl, .refl _, .refused file refusal, kept⟩

/-- Cleaning up forgets the artifacts before it removes them. -/
theorem result_cleanArtifacts (w : Workspace) :
    cleanArtifacts.result w = (w.artifacts.forM removeArtifact).result { w with artifacts := [] } := by
  simp only [cleanArtifacts, result_bind, result_get, result_modify]

/-! ## What is remembered -/

/-- Cleaning up keeps account of a workspace: if it fails, the artifacts that are still files are still
remembered, and otherwise there are none of either. -/
def Workspace.Recoverable (w : Workspace) : Prop :=
  match cleanArtifacts.result w with
  | (.error _, w') => ∀ p ∈ w.artifacts, w'.files.isFile p = true → p ∈ w'.artifacts
  | (.ok (), w') => (∀ p ∈ w.artifacts, w'.files.isFile p = false) ∧ w'.artifacts = []

/-- Cleaning up keeps account exactly if it succeeds. It removes the artifacts up to the first whose
removal is refused, with no other change to the files, and forgets all of them, so that a second attempt
removes nothing. -/
theorem Workspace.recoverable_iff (w : Workspace) :
    ∃ answer w' done rest, cleanArtifacts.result w = (answer, w') ∧ w.artifacts = done ++ rest ∧
      Swept w.files done w'.files ∧ Stops w'.files rest answer ∧
      cleanArtifacts.result w' = (.ok (), w') ∧ (w.Recoverable ↔ answer = .ok ()) := by
  rcases hr : cleanArtifacts.result w with ⟨answer, w'⟩
  obtain ⟨done, rest, split, swept, stops, forgotten⟩ :=
    forM_removeArtifact ((result_cleanArtifacts w).symm.trans hr)
  refine ⟨answer, w', done, rest, rfl, split, swept, stops, ?_, ?_⟩
  · obtain ⟨files, output, log, requests, artifacts⟩ := w'
    obtain rfl : artifacts = [] := forgotten
    rfl
  · rw [Recoverable, hr]
    cases stops with
    | finished =>
      have all : w.artifacts = done := by simpa using split
      exact iff_of_true ⟨all ▸ swept.gone, forgotten⟩ rfl
    | @refused p _ e file refusal =>
      refine iff_of_false (fun account => ?_) nofun
      have remembered : p ∈ w'.artifacts := account p (by simp [split]) file
      simp [show w'.artifacts = [] from forgotten] at remembered

/-- A workspace whose first artifact cannot be removed. -/
def Sample.stuck : Workspace where
  files := {
    entries := [
      (["proc".toList], .directory),
      (["proc".toList, "version".toList], .file (.plain []) false),
      (["a.o".toList], .file (.plain []) false)]
    sealed := [["proc".toList, "version".toList]] }
  artifacts := [⟨"/proc/version".toList⟩, ⟨"a.o".toList⟩]

/-- Both files are left, and neither is remembered. -/
theorem not_recoverable_stuck : ¬Sample.stuck.Recoverable := by
  have left : (cleanArtifacts.result Sample.stuck).2.files.isFile ⟨"a.o".toList⟩ = true := by
    decide +kernel
  have failed : (cleanArtifacts.result Sample.stuck).1 =
      .error ⟨.file .denied, some (.removing ⟨"/proc/version".toList⟩)⟩ := by decide +kernel
  have forgotten : (cleanArtifacts.result Sample.stuck).2.artifacts = [] := by decide +kernel
  intro account
  rw [Workspace.Recoverable] at account
  rcases hr : cleanArtifacts.result Sample.stuck with ⟨answer, w'⟩
  rw [hr] at left failed forgotten account
  obtain rfl : answer = _ := failed
  have remembered := account ⟨"a.o".toList⟩ (by decide) left
  simp [show w'.artifacts = [] from forgotten] at remembered

end NativeFreeze
