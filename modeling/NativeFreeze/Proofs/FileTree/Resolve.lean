import NativeFreeze.Proofs.FileTree
import NativeFreeze.Proofs.Path.Components

/-!
# Where paths lead

What a path leads to depends on its components, except that a path in which idle pieces stand behind
a file leads nowhere. A path that reaches an entry below a directory passes through this directory,
and from there on goes along the names of the directories, where no link takes it elsewhere. Paths
keep their entries when directories are added at free names.
-/

namespace NativeFreeze

/-- The step that a component asks for. -/
def Path.Component.step? : Path.Component → Option FileTree.Step
  | root => none
  | here => none
  | up => some .up
  | name s => some (.enter s)

namespace FileTree

variable {t t' : FileTree} {last : Bool} {k l : Location} {e : Entry} {place : Place}
  {steps s₁ s₂ : List Step} {p q : Path} {names : List Text} {links : Nat}

/-! ## Idle steps -/

section Stay
variable {again : Location → List Step → Except FileError Place}

theorem Followed.drop_stay
    (goOn : ∀ k s₁ place, again k (s₁ ++ .stay :: s₂) = .ok place → again k (s₁ ++ s₂) = .ok place)
    (h : Followed t true again k (s₁ ++ .stay :: s₂) place) :
    Followed t true again k (s₁ ++ s₂) place := by
  induction s₁ generalizing k with
  | nil =>
    cases h with
    | stay _ on => exact on
  | cons step s₁ ih =>
    rw [List.cons_append] at h ⊢
    generalize rest_eq : s₁ ++ .stay :: s₂ = rest at h
    cases h with
    | stay directory on => exact .stay directory (ih (rest_eq ▸ on))
    | up directory on => exact .up directory (ih (rest_eq ▸ on))
    | free => simp at rest_eq
    | link => simp at rest_eq
    | target directory short there go full on =>
      refine .target directory short there (fun _ => rfl) full ?_
      rw [← rest_eq, ← List.append_assoc] at on
      rw [← List.append_assoc]
      exact goOn _ _ _ on
    | enter directory short there entry on =>
      exact .enter directory short there entry (ih (rest_eq ▸ on))

theorem Followed.insert_stay
    (goOn : ∀ k s₁, again k (s₁ ++ s₂) = .ok (.taken l .directory) →
      again k (s₁ ++ .stay :: s₂) = .ok (.taken l .directory))
    (h : Followed t true again k (s₁ ++ s₂) (.taken l .directory)) :
    Followed t true again k (s₁ ++ .stay :: s₂) (.taken l .directory) := by
  induction s₁ generalizing k with
  | nil =>
    have directory : t.get? k = some .directory := by
      cases h <;> assumption
    exact .stay directory h
  | cons step s₁ ih =>
    rw [List.cons_append] at h ⊢
    generalize rest_eq : s₁ ++ s₂ = rest at h
    cases h with
    | stay directory on => exact .stay directory (ih (rest_eq ▸ on))
    | up directory on => exact .up directory (ih (rest_eq ▸ on))
    | target directory short there go full on =>
      refine .target directory short there (fun _ => rfl) full ?_
      rw [← rest_eq, ← List.append_assoc] at on
      rw [← List.append_assoc]
      exact goOn _ _ on
    | enter directory short there entry on =>
      exact .enter directory short there entry (ih (rest_eq ▸ on))

end Stay

theorem walk_drop_stay (h : walk t true links k (s₁ ++ .stay :: s₂) = .ok place) :
    walk t true links k (s₁ ++ s₂) = .ok place := by
  induction links generalizing k s₁ place with
  | zero => simp [walk] at h
  | succ links ih => exact follow_of_followed ((followed_of_follow h).drop_stay fun _ _ _ => ih)

theorem walk_insert_stay (h : walk t true links k (s₁ ++ s₂) = .ok (.taken l .directory)) :
    walk t true links k (s₁ ++ .stay :: s₂) = .ok (.taken l .directory) := by
  induction links generalizing k s₁ with
  | zero => simp [walk] at h
  | succ links ih => exact follow_of_followed ((followed_of_follow h).insert_stay fun _ _ => ih)

/-- Idle steps can be left out. -/
theorem walk_filter (s₁ : List Step) (h : walk t true links k (s₁ ++ s₂) = .ok place) :
    walk t true links k (s₁ ++ s₂.filter (· ≠ .stay)) = .ok place := by
  induction s₂ generalizing s₁ with
  | nil => exact h
  | cons step s₂ ih =>
    by_cases stay : step = .stay
    · subst stay
      exact ih s₁ (walk_drop_stay h)
    · rw [List.filter_cons_of_pos (by simpa using stay), List.append_cons]
      exact ih _ (List.append_cons s₁ step s₂ ▸ h)

/-- Where steps lead to a directory, idle steps can be put in. -/
theorem walk_of_filter (s₁ : List Step)
    (h : walk t true links k (s₁ ++ s₂.filter (· ≠ .stay)) = .ok (.taken l .directory)) :
    walk t true links k (s₁ ++ s₂) = .ok (.taken l .directory) := by
  induction s₂ generalizing s₁ with
  | nil => exact h
  | cons step s₂ ih =>
    by_cases stay : step = .stay
    · subst stay
      exact walk_insert_stay (ih s₁ h)
    · rw [List.filter_cons_of_pos (by simpa using stay), List.append_cons] at h
      rw [List.append_cons]
      exact ih _ h

/-! ## Steps through a directory -/

theorem Followed.directory {again : Location → List Step → Except FileError Place}
    (h : Followed t last again k steps place) (on : steps ≠ []) : t.get? k = some .directory := by
  cases h with
  | here => exact absurd rfl on
  | stay directory | up directory | free directory | link directory | target directory
  | enter directory => exact directory

/-- Steps that go on are taken from a directory. -/
theorem walk_append (later : s₂ ≠ []) (h : walk t true links k (s₁ ++ s₂) = .ok place) :
    ∃ l links', walk t true links k s₁ = .ok (.taken l .directory) ∧
      walk t true links' l s₂ = .ok place := by
  induction links generalizing k s₁ with
  | zero => simp [walk] at h
  | succ links again =>
    have split : ∀ k s₁, Followed t true (walk t true links) k (s₁ ++ s₂) place →
        ∃ l links', Followed t true (walk t true links) k s₁ (.taken l .directory) ∧
          walk t true links' l s₂ = .ok place := by
      intro k s₁ h
      induction s₁ generalizing k with
      | nil => exact ⟨k, links + 1, .here (h.directory later), follow_of_followed h⟩
      | cons step s₁ ih =>
        rw [List.cons_append] at h
        generalize rest_eq : s₁ ++ s₂ = rest at h
        cases h with
        | stay directory on =>
          obtain ⟨l, links', front, back⟩ := ih k (rest_eq ▸ on)
          exact ⟨l, links', .stay directory front, back⟩
        | up directory on =>
          obtain ⟨l, links', front, back⟩ := ih _ (rest_eq ▸ on)
          exact ⟨l, links', .up directory front, back⟩
        | free => exact absurd (List.append_eq_nil_iff.mp rest_eq).2 later
        | link => exact absurd (List.append_eq_nil_iff.mp rest_eq).2 later
        | target directory short there go full on =>
          rw [← rest_eq, ← List.append_assoc] at on
          obtain ⟨l, links', front, back⟩ := again on
          exact ⟨l, links', .target directory short there (fun _ => rfl) full front, back⟩
        | enter directory short there entry on =>
          obtain ⟨l, links', front, back⟩ := ih _ (rest_eq ▸ on)
          exact ⟨l, links', .enter directory short there entry front, back⟩
    obtain ⟨l, links', front, back⟩ := split k s₁ (followed_of_follow h)
    exact ⟨l, links', follow_of_followed front, back⟩

/-- Names lead from a directory through directories to an entry, and through no link. -/
def Leads (t : FileTree) : Location → List Text → Entry → Prop
  | k, [], e => t.get? k = some e
  | k, name :: names, e => t.get? k = some .directory ∧ Leads t (k ++ [name]) names e

/-- None of the entries that names stand for, one in the other, is a link. -/
def LinkFree (t : FileTree) (k : Location) (names : List Text) : Prop :=
  ∀ front, front <+: names → front ≠ [] → ∀ target, t.get? (k ++ front) ≠ some (.link target)

theorem LinkFree.tail {name : Text} (h : LinkFree t k (name :: names)) :
    LinkFree t (k ++ [name]) names := by
  intro front isFront _ target
  rw [List.append_assoc]
  exact h (name :: front) ((List.prefix_cons_inj name).mpr isFront) (List.cons_ne_nil _ _) target

/-- Without links on the way, entering names leads down from directory to directory. -/
theorem leads_of_walk (free : LinkFree t k names)
    (h : walk t true links k (names.map .enter) = .ok (.taken l e)) : Leads t k names e := by
  cases links with
  | zero => simp [walk] at h
  | succ links =>
    induction names generalizing k with
    | nil =>
      cases followed_of_follow h with
      | here there => exact there
    | cons name names ih =>
      rw [List.map_cons] at h
      generalize rest_eq : names.map Step.enter = rest at h
      cases followed_of_follow h with
      | link _ _ _ stop => exact absurd stop (by decide)
      | target _ _ there =>
        have first : [name] <+: name :: names := ⟨names, rfl⟩
        exact absurd there (free [name] first (List.cons_ne_nil _ _) _)
      | enter directory _ _ _ on =>
        exact ⟨directory, ih free.tail (follow_of_followed (rest_eq ▸ on))⟩

/-! ## Paths by their components -/

/-- A path text that a system accepts. -/
def Usable (p : Path) : Prop :=
  p.text ≠ [] ∧ '\x00' ∉ p.text

theorem usable_of_find (h : t.find last p = .ok place) : Usable p := by
  unfold find at h
  split at h
  · simp at h
  · rename_i full
    split at h
    · simp at h
    · rename_i plain
      exact ⟨by simpa using full, by simpa using plain⟩

theorem find_eq_walk (usable : Usable p) : t.find last p =
    walk t last (linkLimit + 1) (if p.isAbsolute then [] else t.workingDirectory)
      ((Text.split '/' p.text).map Step.ofPiece) := by
  have full : ¬p.text.isEmpty = true := by simpa using usable.1
  have plain : ¬p.text.contains '\x00' = true := by simpa using usable.2
  rw [find, if_neg full, if_neg plain]

/-- The steps of a path without the idle ones are those of its components. -/
theorem filter_steps (p : Path) :
    ((Text.split '/' p.text).map Step.ofPiece).filter (· ≠ .stay) =
      p.components.filterMap Path.Component.step? := by
  have anchor : ∀ a : Path.Anchor, a.components.filterMap Path.Component.step? = [] := by
    intro a
    cases a <;> rfl
  rw [Path.components_eq, List.filterMap_append, anchor, List.nil_append, Path.trail]
  induction Text.split '/' p.text with
  | nil => rfl
  | cons piece pieces ih =>
    cases idle : Path.isIdle piece with
    | true =>
      have stay : Step.ofPiece piece = .stay := if_pos idle
      simpa [stay, idle] using ih
    | false =>
      have step : (Path.component piece).step? = some (Step.ofPiece piece) := by
        have busy : ¬(piece.isEmpty || piece == ['.']) = true := by simpa [Path.isIdle] using idle
        rw [Step.ofPiece, if_neg busy]
        unfold Path.component
        split <;> rfl
      have moves : Step.ofPiece piece ≠ .stay := by
        intro stay
        rw [stay] at step
        cases h : Path.component piece <;> simp [h, Path.Component.step?] at step
      rw [List.map_cons, List.filter_cons_of_pos (by simpa using moves), ih,
        List.filter_cons_of_pos (by simpa using idle), List.map_cons,
        List.filterMap_cons_some step]

/-- A path that reaches an entry below a directory passes through the directory. -/
theorem exists_directory_above {base : List Path.Component} (h : t.at? p = .ok (l, e))
    (below : p.components = base ++ names.map .name) (full : base ≠ []) (later : names ≠ []) :
    ∃ k links, (∀ folder : Path, folder.components = base → t.at? folder = .ok (k, .directory)) ∧
      walk t true links k (names.map .enter) = .ok (.taken l e) := by
  have found := at?_eq_ok_iff.mp h
  have usable := usable_of_find found
  rw [find_eq_walk usable] at found
  have entered : (names.map Path.Component.name).filterMap Path.Component.step? =
      names.map .enter := by
    rw [List.filterMap_map]
    exact congrFun (@List.filterMap_eq_map Text Step .enter) names
  have stepped := walk_filter [] found
  rw [List.nil_append, filter_steps, below, List.filterMap_append, entered] at stepped
  obtain ⟨k, links, front, back⟩ := walk_append (by simpa using later) stepped
  refine ⟨k, links, fun folder components => ?_, back⟩
  have start : folder.isAbsolute = p.isAbsolute := by
    obtain ⟨first, others, rfl⟩ := List.exists_cons_of_ne_nil full
    rw [Bool.eq_iff_iff, Path.isAbsolute_iff, Path.isAbsolute_iff, components, below]
    rfl
  have named : Usable folder := by
    constructor
    · intro empty
      obtain ⟨text⟩ := folder
      obtain rfl : text = [] := empty
      exact full components.symm
    · intro nul
      rw [Path.mem_text_iff (by decide), components] at nul
      obtain ⟨c, hc, inside⟩ := nul
      refine usable.2 ((Path.mem_text_iff (by decide)).mpr ⟨c, ?_, inside⟩)
      exact below ▸ List.mem_append_left _ hc
  rw [at?_eq_ok_iff, find_eq_walk named, start]
  refine walk_of_filter [] ?_
  rw [List.nil_append, filter_steps, components]
  exact front

theorem Followed.through {again again' : Location → List Step → Except FileError Place}
    (goOn : ∀ k steps, again k steps = .ok (.taken l e) → again' k steps = .ok (.taken l e))
    (entry : ∀ target, e ≠ .link target) (h : Followed t false again k steps (.taken l e)) :
    Followed t true again' k steps (.taken l e) := by
  induction steps generalizing k with
  | nil =>
    cases h with
    | here there => exact .here there
  | cons step rest ih =>
    cases h with
    | stay directory on => exact .stay directory (ih on)
    | up directory on => exact .up directory (ih on)
    | link => exact absurd rfl (entry _)
    | target directory short there go full on =>
      exact .target directory short there (fun _ => rfl) full (goOn _ _ on)
    | enter directory short there real on => exact .enter directory short there real (ih on)

/-- A path that leads to no link leads to the same entry where links are followed to their end. -/
theorem at?_of_linkAt? (h : t.linkAt? p = .ok (l, e)) (entry : ∀ target, e ≠ .link target) :
    t.at? p = .ok (l, e) := by
  have walked : ∀ links k steps, walk t false links k steps = .ok (.taken l e) →
      walk t true links k steps = .ok (.taken l e) := by
    intro links
    induction links with
    | zero => intro k steps h; simp [walk] at h
    | succ links ih =>
      intro k steps h
      exact follow_of_followed ((followed_of_follow h).through ih entry)
  have found := linkAt?_eq_ok_iff.mp h
  have usable := usable_of_find found
  rw [find_eq_walk usable] at found
  rw [at?_eq_ok_iff, find_eq_walk usable]
  exact walked _ _ _ found

/-! ## Trees with more entries -/

section Make
variable {P : FileTree → Prop}
  (made : ∀ t l, P t → t.get? l = none → l ≠ [] → P (t.put l .directory))
include made

theorem makeDirectory_induction (start : P t) (h : t.makeDirectory p = .ok t') : P t' := by
  unfold makeDirectory at h
  split at h
  · simp at h
  · rename_i l found
    obtain ⟨free, below⟩ := find_in found
    split at h
    · simp at h
    · exact Except.ok.inj h ▸ made t l start free below
  · simp at h

theorem makeChain_induction (ps : List Path) (start : P t) : P (t.makeChain ps).2 := by
  induction ps generalizing t with
  | nil => exact start
  | cons p above ih =>
    unfold makeChain
    split
    · exact start
    · split
      · rename_i done
        exact makeDirectory_induction made start done
      · split
        · rename_i h
          exact h ▸ ih start
        · rename_i t₁ h
          have chain : P t₁ := by simpa [h] using ih start
          split
          · rename_i done
            exact makeDirectory_induction made chain done
          · split <;> exact chain
      · split <;> exact start

/-- What holds of a tree and outlives each new directory holds when directories were made. -/
theorem makeAll_induction (p : Path) (start : P t) : P (t.makeAll p).2 :=
  makeChain_induction made p.ancestors start

end Make

/-- `t'` has the entries of `t`, and maybe others. -/
structure Extends (t t' : FileTree) : Prop where
  entries : ∀ l e, t.get? l = some e → t'.get? l = some e
  workingDirectory : t'.workingDirectory = t.workingDirectory

namespace Extends

theorem refl (t : FileTree) : Extends t t :=
  ⟨fun _ _ h => h, rfl⟩

theorem trans {t₁ t₂ t₃ : FileTree} (h₁₂ : Extends t₁ t₂) (h₂₃ : Extends t₂ t₃) :
    Extends t₁ t₃ :=
  ⟨fun l e h => h₂₃.entries l e (h₁₂.entries l e h),
    h₂₃.workingDirectory.trans h₁₂.workingDirectory⟩

theorem followed (more : Extends t t') {again again' : Location → List Step → Except FileError Place}
    (goOn : ∀ k steps, again k steps = .ok (.taken l e) → again' k steps = .ok (.taken l e))
    (h : Followed t last again k steps (.taken l e)) :
    Followed t' last again' k steps (.taken l e) := by
  induction steps generalizing k with
  | nil =>
    cases h with
    | here there => exact .here (more.entries _ _ there)
  | cons step rest ih =>
    cases h with
    | stay directory on => exact .stay (more.entries _ _ directory) (ih on)
    | up directory on => exact .up (more.entries _ _ directory) (ih on)
    | link directory short there stop =>
      exact .link (more.entries _ _ directory) short (more.entries _ _ there) stop
    | target directory short there go full on =>
      exact .target (more.entries _ _ directory) short (more.entries _ _ there) go full
        (goOn _ _ on)
    | enter directory short there entry on =>
      exact .enter (more.entries _ _ directory) short (more.entries _ _ there) entry (ih on)

theorem find (more : Extends t t') (h : t.find last p = .ok (.taken l e)) :
    t'.find last p = .ok (.taken l e) := by
  have walked : ∀ links k steps, walk t last links k steps = .ok (.taken l e) →
      walk t' last links k steps = .ok (.taken l e) := by
    intro links
    induction links with
    | zero => intro k steps h; simp [walk] at h
    | succ links ih =>
      intro k steps h
      exact follow_of_followed (more.followed ih (followed_of_follow h))
  have usable := usable_of_find h
  rw [find_eq_walk usable] at h
  rw [find_eq_walk usable, more.workingDirectory]
  exact walked _ _ _ h

/-- What was there is where it was. -/
theorem at? (more : Extends t t') (h : t.at? p = .ok (l, e)) : t'.at? p = .ok (l, e) :=
  at?_eq_ok_iff.mpr (more.find (at?_eq_ok_iff.mp h))

theorem linkAt? (more : Extends t t') (h : t.linkAt? p = .ok (l, e)) : t'.linkAt? p = .ok (l, e) :=
  linkAt?_eq_ok_iff.mpr (more.find (linkAt?_eq_ok_iff.mp h))

/-- What is a file was one. -/
theorem isFile (more : Extends t t') (h : t.isFile p = true) : t'.isFile p = true := by
  obtain ⟨l, e, led, file⟩ := exists_at?_of_isFile h
  rw [FileTree.isFile, more.at? led]
  exact file

theorem leads (more : Extends t t') (h : Leads t k names e) : Leads t' k names e := by
  induction names generalizing k with
  | nil => exact more.entries k e h
  | cons name names ih => exact ⟨more.entries k _ h.1, ih h.2⟩

theorem put (free : t.get? l = none) (below : l ≠ []) : Extends t (t.put l e) where
  entries k d there := by
    have ne : k ≠ l := by
      rintro rfl
      exact absurd (free.symm.trans there) nofun
    rw [get?_put t l k e below, if_neg ne, there]
  workingDirectory := rfl

/-- Making directories only adds entries. -/
theorem makeAll (p : Path) : Extends t (t.makeAll p).2 :=
  makeAll_induction (fun _ _ more free below => more.trans (.put free below)) p (.refl t)

end Extends

end FileTree

end NativeFreeze
