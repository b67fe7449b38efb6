import NativeFreeze.FileTree.Change
import NativeFreeze.Proofs.Text.Utf8

/-!
# Reading what was written

A write goes to a free name or replaces a file. Neither can turn a path away from its place, since a
path goes on only through directories and links; so after a write the same path leads to the new
file.
-/

namespace NativeFreeze.FileTree

/-- The location of a place. -/
def Place.location : Place → Location
  | taken l _ => l
  | free l => l

/-- A place as it is in a tree: an entry that is there, or a name below the root that is not. -/
def Place.In (t : FileTree) : Place → Prop
  | taken l e => t.get? l = some e
  | free l => t.get? l = none ∧ l ≠ []

/-- How steps lead from a location to a place. -/
inductive Followed (t : FileTree) (last : Bool)
    (again : Location → List Step → Except FileError Place) : Location → List Step → Place → Prop
  | here {k e} (there : t.get? k = some e) : Followed t last again k [] (.taken k e)
  | stay {k rest place} (directory : t.get? k = some .directory)
      (on : Followed t last again k rest place) : Followed t last again k (.stay :: rest) place
  | up {k rest place} (directory : t.get? k = some .directory)
      (on : Followed t last again k.dropLast rest place) :
      Followed t last again k (.up :: rest) place
  | free {k name} (directory : t.get? k = some .directory)
      (short : ¬longestName < name.bytes.length) (none : t.get? (k ++ [name]) = none) :
      Followed t last again k [.enter name] (.free (k ++ [name]))
  | link {k name target} (directory : t.get? k = some .directory)
      (short : ¬longestName < name.bytes.length)
      (there : t.get? (k ++ [name]) = some (.link target)) (stop : last = false) :
      Followed t last again k [.enter name] (.taken (k ++ [name]) (.link target))
  | target {k name target rest place} (directory : t.get? k = some .directory)
      (short : ¬longestName < name.bytes.length)
      (there : t.get? (k ++ [name]) = some (.link target)) (go : rest = [] → last = true)
      (full : target ≠ [])
      (on : again (if target.head? = some '/' then [] else k)
        ((Text.split '/' target).map Step.ofPiece ++ rest) = .ok place) :
      Followed t last again k (.enter name :: rest) place
  | enter {k name rest place e} (directory : t.get? k = some .directory)
      (short : ¬longestName < name.bytes.length) (there : t.get? (k ++ [name]) = some e)
      (entry : ∀ target, e ≠ .link target) (on : Followed t last again (k ++ [name]) rest place) :
      Followed t last again k (.enter name :: rest) place

variable {t : FileTree} {last : Bool} {k l : Location} {steps : List Step} {place : Place}

theorem followed_of_follow {again : Location → List Step → Except FileError Place}
    (h : follow t last again k steps = .ok place) : Followed t last again k steps place := by
  induction steps generalizing k with
  | nil =>
    rw [follow] at h
    cases hk : t.get? k with
    | none => simp [hk] at h
    | some e =>
      simp only [hk, Except.ok.injEq] at h
      exact h ▸ .here hk
  | cons step rest ih =>
    unfold follow at h
    split at h
    · simp at h
    · rename_i directory
      cases step with
      | stay => exact .stay directory (ih h)
      | up => exact .up directory (ih h)
      | enter name =>
        dsimp only at h
        split at h
        · simp at h
        · rename_i short
          split at h
          · rename_i none
            split at h
            · rename_i stop
              simp only [Except.ok.injEq] at h
              subst h stop
              exact .free directory short none
            · simp at h
          · rename_i target there
            split at h
            · rename_i stop
              simp only [Except.ok.injEq, Bool.and_eq_true, decide_eq_true_eq,
                Bool.not_eq_true'] at h stop
              obtain ⟨rfl, stop⟩ := stop
              exact h ▸ .link directory short there stop
            · rename_i go
              split at h
              · simp at h
              · rename_i full
                refine .target directory short there ?_ (by simpa using full) h
                simpa using go
          · rename_i e entry there
            exact .enter directory short there entry (ih h)
    · simp at h

theorem follow_of_followed {again : Location → List Step → Except FileError Place}
    (h : Followed t last again k steps place) : follow t last again k steps = .ok place := by
  induction h with
  | here there => rw [follow, there]
  | stay directory _ ih => unfold follow; simp only [directory]; exact ih
  | up directory _ ih => unfold follow; simp only [directory]; exact ih
  | free directory short none =>
    unfold follow
    simp only [directory, if_neg short, none, if_true]
  | link directory short there stop =>
    unfold follow
    simp [directory, short, there, stop]
  | @target k name target rest place directory short there go full on =>
    unfold follow
    have goOn : ¬(rest = [] ∧ last = false) := by
      rintro ⟨stop, no⟩
      exact Bool.false_ne_true (no.symm.trans (go stop))
    simpa [directory, short, there, full, goOn] using on
  | @enter k name rest place e directory short there entry on ih =>
    unfold follow
    simp only [directory, if_neg short, there]
    cases e with
    | link target => exact absurd rfl (entry target)
    | directory => exact ih
    | file content mark => exact ih

theorem in_of_followed {again : Location → List Step → Except FileError Place}
    (goOn : ∀ k steps place, again k steps = .ok place → place.In t)
    (h : Followed t last again k steps place) : place.In t := by
  induction h with
  | here there => exact there
  | stay _ _ ih => exact ih
  | up _ _ ih => exact ih
  | free _ _ none => exact ⟨none, List.append_ne_nil_of_right_ne_nil _ (List.cons_ne_nil _ [])⟩
  | link _ _ there _ => exact there
  | target _ _ _ _ _ on => exact goOn _ _ _ on
  | enter _ _ _ _ _ ih => exact ih

/-- What a path leads to is there. -/
theorem find_in {p : Path} (h : t.find last p = .ok place) : place.In t := by
  have walked : ∀ links k steps place, walk t last links k steps = .ok place → place.In t := by
    intro links
    induction links with
    | zero => intro k steps place h; simp [walk] at h
    | succ links ih => intro k steps place h; exact in_of_followed ih (followed_of_follow h)
  unfold find at h
  split at h
  · simp at h
  · split at h
    · simp at h
    · exact walked _ _ _ _ h

/-- What a place is once entry `e` was put at `l`. -/
def Place.after (l : Location) (e : Entry) (place : Place) : Place :=
  if place.location = l then .taken l e else place

section Put
variable {content : Content} {mark : Bool} (hl : l ≠ [])
  (file : ∀ e, t.get? l = some e → e.isFile = true)
include hl file

/-- A file at `l` turns no steps away: they lead where they led, and at `l` to that file. -/
theorem Followed.put {again again' : Location → List Step → Except FileError Place}
    (goOn : ∀ k steps place, again k steps = .ok place →
      again' k steps = .ok (place.after l (.file content mark)))
    (h : Followed t true again k steps place) :
    Followed (t.put l (.file content mark)) true again' k steps
      (place.after l (.file content mark)) := by
  have at_l : (t.put l (.file content mark)).get? l = some (.file content mark) := by
    rw [get?_put t l l _ hl, if_pos rfl]
  have other {k : Location} (ne : k ≠ l) : (t.put l (.file content mark)).get? k = t.get? k := by
    rw [get?_put t l k _ hl, if_neg ne]
  have kept {k : Location} {e : Entry} (h : t.get? k = some e) (he : e.isFile = false) :
      (t.put l (.file content mark)).get? k = some e := by
    refine (other ?_).trans h
    rintro rfl
    exact Bool.false_ne_true (he.symm.trans (file e h))
  induction h with
  | @here k e there =>
    unfold Place.after
    split
    · rename_i here
      obtain rfl : k = l := here
      exact .here at_l
    · rename_i ne
      exact .here ((other ne).trans there)
  | stay directory _ ih => exact .stay (kept directory rfl) ih
  | up directory _ ih => exact .up (kept directory rfl) ih
  | @free k name directory short none =>
    unfold Place.after
    split
    · rename_i here
      obtain rfl : k ++ [name] = l := here
      exact .enter (kept directory rfl) short at_l nofun (.here at_l)
    · rename_i ne
      exact .free (kept directory rfl) short ((other ne).trans none)
  | link _ _ _ stop => exact absurd stop (by decide)
  | target directory short there go full on =>
    exact .target (kept directory rfl) short (kept there rfl) go full (goOn _ _ _ on)
  | @enter k name rest place e directory short there entry on ih =>
    by_cases hk : k ++ [name] = l
    · have there : (t.put l (.file content mark)).get? (k ++ [name]) =
          some (.file content mark) := by rw [hk, at_l]
      exact .enter (kept directory rfl) short there nofun ih
    · exact .enter (kept directory rfl) short ((other hk).trans there) entry ih

theorem find_put {p : Path} (h : t.find true p = .ok place) :
    (t.put l (.file content mark)).find true p = .ok (place.after l (.file content mark)) := by
  have walked : ∀ links k steps place, walk t true links k steps = .ok place →
      walk (t.put l (.file content mark)) true links k steps =
        .ok (place.after l (.file content mark)) := by
    intro links
    induction links with
    | zero => intro k steps place h; simp [walk] at h
    | succ links ih =>
      intro k steps place h
      exact follow_of_followed ((followed_of_follow h).put hl file ih)
  unfold find at h ⊢
  split at h
  · simp at h
  · rename_i full
    split at h
    · simp at h
    · rename_i plain
      rw [if_neg full, if_neg plain]
      exact walked _ _ _ _ h

end Put

/-! ## Files that were written -/

theorem at?_eq_ok_iff {p : Path} {e : Entry} :
    t.at? p = .ok (l, e) ↔ t.find true p = .ok (.taken l e) := by
  unfold at?
  constructor
  · intro h
    split at h
    · rename_i found
      obtain ⟨rfl, rfl⟩ := Prod.mk.inj (Except.ok.inj h)
      exact found
    · simp at h
    · simp at h
  · intro h
    rw [h]

theorem linkAt?_eq_ok_iff {p : Path} {e : Entry} :
    t.linkAt? p = .ok (l, e) ↔ t.find false p = .ok (.taken l e) := by
  unfold linkAt?
  constructor
  · intro h
    split at h
    · rename_i found
      obtain ⟨rfl, rfl⟩ := Prod.mk.inj (Except.ok.inj h)
      exact found
    · simp at h
    · simp at h
  · intro h
    rw [h]

theorem get?_of_at? {p : Path} {e : Entry} (h : t.at? p = .ok (l, e)) : t.get? l = some e :=
  find_in (at?_eq_ok_iff.mp h)

theorem exists_at?_of_isFile {p : Path} (h : t.isFile p = true) :
    ∃ l e, t.at? p = .ok (l, e) ∧ e.isFile = true := by
  unfold isFile at h
  split at h
  · rename_i l e there
    exact ⟨l, e, there, h⟩
  · simp at h

theorem isFile_entry_iff {e : Entry} :
    e.isFile = true ↔ ∃ content mark, e = .file content mark := by
  cases e <;> simp [Entry.isFile]

/-- `t'` is `t` with a file where `p` leads to, where there was a file or nothing. -/
def Wrote (t : FileTree) (p : Path) (content : Content) (t' : FileTree) : Prop :=
  ∃ place mark, t.find true p = .ok place ∧ t' = t.put place.location (.file content mark) ∧
    ∀ e, place = .taken place.location e → e.isFile = true

namespace Wrote
variable {t' : FileTree} {p q : Path} {content : Content}

/-- A place to write to is not the root, and there is no entry but a file. -/
theorem isFree (found : t.find true p = .ok place)
    (file : ∀ e, place = .taken place.location e → e.isFile = true) :
    place.location ≠ [] ∧ ∀ e, t.get? place.location = some e → e.isFile = true := by
  have there : place.In t := find_in found
  cases place with
  | free l => exact ⟨there.2, fun e he => absurd (there.1.symm.trans he) nofun⟩
  | taken l e =>
    constructor
    · rintro rfl
      have root : t.get? [] = some .directory := rfl
      obtain rfl : Entry.directory = e := Option.some.inj (root.symm.trans there)
      exact Bool.false_ne_true (file _ rfl)
    · intro d hd
      obtain rfl : e = d := Option.some.inj (there.symm.trans hd)
      exact file _ rfl

/-- The path leads to the file. -/
theorem at? (h : Wrote t p content t') : ∃ l mark, t'.at? p = .ok (l, .file content mark) := by
  obtain ⟨place, mark, found, rfl, file⟩ := h
  obtain ⟨below, free⟩ := isFree found file
  refine ⟨place.location, mark, at?_eq_ok_iff.mpr ?_⟩
  rw [find_put below free found, Place.after, if_pos rfl]

/-- Another file is where it was, and unless the paths lead to one file, it is as it was. -/
theorem keeps {e : Entry} (h : Wrote t p content t') (there : t.at? q = .ok (l, e))
    (he : e.isFile = true) : ∃ e', t'.at? q = .ok (l, e') ∧ e'.isFile = true ∧
      ((∀ d, t'.at? p ≠ .ok (l, d)) → e' = e) := by
  obtain ⟨place, mark, found, rfl, file⟩ := h
  obtain ⟨below, free⟩ := isFree found file
  have led : (t.put place.location (.file content mark)).find true q = .ok _ :=
    find_put below free (at?_eq_ok_iff.mp there)
  rw [Place.after] at led
  split at led
  · rename_i here
    obtain rfl : l = place.location := here
    refine ⟨_, at?_eq_ok_iff.mpr led, rfl, fun apart => ?_⟩
    refine absurd (at?_eq_ok_iff.mpr ?_) (apart (.file content mark))
    rw [find_put below free found, Place.after, if_pos rfl]
  · exact ⟨e, at?_eq_ok_iff.mpr led, he, fun _ => rfl⟩

end Wrote

theorem store_eq_ok {t' : FileTree} {content : Content} (h : t.store content place = .ok t') :
    ∃ mark, t' = t.put place.location (.file content mark) ∧
      ∀ e, place = .taken place.location e → e.isFile = true := by
  cases place with
  | free l =>
    simp only [store] at h
    split at h
    · simp at h
    · exact ⟨false, (Except.ok.inj h).symm, nofun⟩
  | taken l e =>
    cases e with
    | file old mark =>
      simp only [store] at h
      split at h
      · simp at h
      · refine ⟨mark, (Except.ok.inj h).symm, ?_⟩
        intro e he
        obtain ⟨-, rfl⟩ := Place.taken.inj he
        rfl
    | directory => simp [store] at h
    | link target => simp [store] at h

theorem wrote_of_write {t' : FileTree} {p : Path} {content : Content}
    (h : t.write p content = .ok t') : Wrote t p content t' := by
  unfold write at h
  split at h
  · rename_i place found
    obtain ⟨mark, rfl, file⟩ := store_eq_ok h
    exact ⟨place, mark, found, rfl, file⟩
  · simp at h

theorem wrote_of_copy {t' : FileTree} {source target : Path} (h : t.copy source target = .ok t') :
    ∃ content, Wrote t target content t' := by
  unfold copy at h
  split at h
  · simp at h
  · split at h
    · simp at h
    · rename_i k old executable found
      split at h
      · simp at h
      · refine ⟨_, _, _, found, (Except.ok.inj h).symm, fun e he => ?_⟩
        obtain ⟨-, rfl⟩ := Place.taken.inj he
        rfl
    · simp at h
    · rename_i k found
      split at h
      · simp at h
      · exact ⟨_, _, _, found, (Except.ok.inj h).symm, nofun⟩
  · simp at h

/-- A file reads as what was written to it. -/
theorem read_write {t' : FileTree} {p : Path} {content : Content}
    (h : t.write p content = .ok t') : t'.read p = .ok content.bytes := by
  obtain ⟨l, mark, there⟩ := (wrote_of_write h).at?
  rw [read, there]

/-- A file reads as the text that was written to it. -/
theorem readText_write {t' : FileTree} {p : Path} {s : Text}
    (h : t.write p (.plain s.bytes) = .ok t') : t'.readText p = .ok s := by
  have read : t'.read p = .ok (Utf8.encode s) := read_write h
  rw [readText, read]
  dsimp only
  rw [Utf8.decode?_encode]

end NativeFreeze.FileTree
