import Mathlib.Data.List.Basic
import NativeFreeze.Proofs.FileTree.Resolve
import NativeFreeze.Source.Pattern

/-!
# Trees that differ in few places

A path heads for a location, whether or not anything is there: only links decide which. Where a tree
was changed in no other way than by making directories, writing files at some locations and removing
files at some, every path still heads for its location, directories are where they were, and a file at
any other location is there, as it was, in its place among the others.
-/

namespace NativeFreeze.FileTree

variable {t t' t₁ t₂ t₃ : FileTree} {last : Bool} {k l : Location} {e : Entry} {p : Path}
  {steps : List Step} {place : Place} {written removed : Location → Prop}

/-- The target of the link at a location, if there is a link. -/
def linkTo? (t : FileTree) (l : Location) : Option Text :=
  match t.get? l with
  | some (.link target) => some target
  | _ => none

/-- Where steps head for from a location. Where a link has to be followed, `again` goes on with the
steps of its target in front of the rest. -/
def headAlong (t : FileTree) (last : Bool) (again : Location → List Step → Option Location) :
    Location → List Step → Option Location
  | l, [] => some l
  | l, .stay :: rest => headAlong t last again l rest
  | l, .up :: rest => headAlong t last again l.dropLast rest
  | l, .enter name :: rest =>
    match t.linkTo? (l ++ [name]) with
    | some target =>
      if rest = [] && !last then some (l ++ [name])
      else again (if target.head? = some '/' then [] else l)
        ((Text.split '/' target).map Step.ofPiece ++ rest)
    | none => headAlong t last again (l ++ [name]) rest

/-- Where steps head for through at most `links` links. -/
def headWithin (t : FileTree) (last : Bool) : (links : Nat) → Location → List Step → Option Location
  | 0 => fun _ _ => none
  | links + 1 => headAlong t last (headWithin t last links)

/-- Where a path heads for, if it does not lead through too many links. -/
def goal (t : FileTree) (last : Bool) (p : Path) : Option Location :=
  headWithin t last (linkLimit + 1) (if p.isAbsolute then [] else t.workingDirectory)
    ((Text.split '/' p.text).map Step.ofPiece)

/-! ## Where paths head for -/

theorem linkTo?_eq_none (h : ∀ target, t.get? l ≠ some (.link target)) : t.linkTo? l = none := by
  unfold linkTo?
  split
  · rename_i target there
    exact absurd there (h target)
  · rfl

theorem linkTo?_eq_some_iff {target : Text} :
    t.linkTo? l = some target ↔ t.get? l = some (.link target) := by
  unfold linkTo?
  split
  · rename_i target' there
    simp [there]
  · rename_i other
    constructor
    · simp
    · intro there
      exact absurd there (other target)

theorem Followed.head {again : Location → List Step → Except FileError Place}
    {again' : Location → List Step → Option Location}
    (goOn : ∀ k steps place, again k steps = .ok place → again' k steps = some place.location)
    (h : Followed t last again k steps place) :
    headAlong t last again' k steps = some place.location := by
  induction h with
  | here there => rfl
  | stay _ _ ih => exact ih
  | up _ _ ih => exact ih
  | @free k name _ _ none =>
    have plain : t.linkTo? (k ++ [name]) = Option.none := linkTo?_eq_none (by simp [none])
    rw [headAlong, plain]
    rfl
  | link _ _ there stop =>
    rw [headAlong, linkTo?_eq_some_iff.mpr there]
    simp [stop, Place.location]
  | @target k name target rest place _ _ there go _ on =>
    rw [headAlong, linkTo?_eq_some_iff.mpr there]
    have goes : ¬(decide (rest = []) && !last) = true := by simpa using go
    dsimp only
    rw [if_neg goes]
    exact goOn _ _ _ on
  | @enter k name rest place e _ _ there entry _ ih =>
    have plain : t.linkTo? (k ++ [name]) = none :=
      linkTo?_eq_none (by simpa [there] using entry)
    rw [headAlong, plain]
    exact ih

/-- A path that leads somewhere heads for that location. -/
theorem goal_of_find (h : t.find last p = .ok place) : t.goal last p = some place.location := by
  have walked : ∀ links k steps place, walk t last links k steps = .ok place →
      headWithin t last links k steps = some place.location := by
    intro links
    induction links with
    | zero => intro k steps place h; simp [walk] at h
    | succ links ih => intro k steps place h; exact (followed_of_follow h).head ih
  rw [find_eq_walk (usable_of_find h)] at h
  exact walked _ _ _ _ h

theorem goal_of_at? (h : t.at? p = .ok (l, e)) : t.goal true p = some l :=
  goal_of_find (at?_eq_ok_iff.mp h)

/-- Where paths head for is decided by the links and the working directory. -/
theorem goal_congr (links : ∀ l, t'.linkTo? l = t.linkTo? l)
    (workingDirectory : t'.workingDirectory = t.workingDirectory) (last : Bool) (p : Path) :
    t'.goal last p = t.goal last p := by
  have along : ∀ again steps k,
      headAlong t' last again k steps = headAlong t last again k steps := by
    intro again steps
    induction steps with
    | nil => intro k; rfl
    | cons step rest ih =>
      intro k
      cases step with
      | stay => exact ih k
      | up => exact ih k.dropLast
      | enter name => rw [headAlong, headAlong, links, ih]
  have within : ∀ n, headWithin t' last n = headWithin t last n := by
    intro n
    induction n with
    | zero => rfl
    | succ n ih =>
      funext k steps
      rw [headWithin, headWithin, ih]
      exact along _ steps k
  rw [goal, goal, workingDirectory, within]

/-! ## Changes -/

/-- `t'` is `t` with directories made, files written at some locations, and files removed at some. The
other files are listed as they were. -/
structure Changed (written removed : Location → Prop) (t t' : FileTree) : Prop where
  workingDirectory : t'.workingDirectory = t.workingDirectory
  links : ∀ l, t'.linkTo? l = t.linkTo? l
  directories : ∀ l, t.get? l = some .directory → t'.get? l = some .directory
  stays : ∀ l content mark, t.get? l = some (.file content mark) → ¬removed l →
    ∃ content' mark', t'.get? l = some (.file content' mark')
  news : ∀ l content mark, t'.get? l = some (.file content mark) → ¬written l →
    t.get? l = some (.file content mark)
  listed : ∀ q : Location × Entry → Bool,
    (∀ x, q x = true → x.2.isFile = true ∧ ¬written x.1 ∧ ¬removed x.1) →
      t'.entries.filter q = t.entries.filter q

theorem filter_putIn {q : Location × Entry → Bool} {es : List (Location × Entry)}
    (new : q (l, e) = false) (old : ∀ d, (l, d) ∈ es → q (l, d) = false) :
    (putIn l e es).filter q = es.filter q := by
  induction es with
  | nil => simp [putIn, new]
  | cons x es ih =>
    obtain ⟨k, d⟩ := x
    have rest := ih fun d hd => old d (List.mem_cons_of_mem _ hd)
    by_cases same : k = l
    · subst same
      have first : q (k, d) = false := old d List.mem_cons_self
      simp [putIn, new, first]
    · simp [putIn, same, List.filter_cons, rest]

theorem lookup_filter_ne (es : List (Location × Entry)) (l k : Location) :
    (es.filter fun x => decide (x.1 ≠ l)).lookup k = if k = l then none else es.lookup k := by
  induction es with
  | nil => simp
  | cons x es ih =>
    obtain ⟨j, d⟩ := x
    rw [List.filter_cons]
    by_cases same : j = l
    · subst same
      rw [if_neg (by simp), ih]
      by_cases hk : k = j
      · simp [hk]
      · simp [hk, List.lookup_cons, beq_false_of_ne hk]
    · rw [if_pos (by simpa using same), List.lookup_cons, List.lookup_cons, ih]
      by_cases hk : k = j
      · simp [hk, same]
      · simp [beq_false_of_ne hk]

theorem get?_erase (below : l ≠ []) (k : Location) :
    (t.erase l).get? k = if k = l then none else t.get? k := by
  by_cases root : k = []
  · subst root
    simp [get?, below.symm]
  · rw [get?, get?, if_neg root, if_neg root]
    exact lookup_filter_ne t.entries l k

/-- What is removed is an entry below the root. -/
theorem remove_eq_ok (h : t.remove p = .ok t') :
    ∃ l e, t.linkAt? p = .ok (l, e) ∧ l ≠ [] ∧ t' = t.erase l := by
  unfold FileTree.remove at h
  split at h
  · simp at h
  · rename_i l e entry linked
    split at h
    · simp at h
    · refine ⟨l, e, linked, ?_, (Except.ok.inj h).symm⟩
      rintro rfl
      have root : t.get? [] = some e := find_in (linkAt?_eq_ok_iff.mp linked)
      exact entry (Option.some.inj root).symm
  · simp at h

/-- What is removed by a path to a file is the file, unless the path names a link. -/
theorem remove_file_eq_ok (h : t.remove p = .ok t') (file : t.isFile p = true)
    (plain : t.goal false p = t.goal true p) :
    ∃ l content mark, t.at? p = .ok (l, .file content mark) ∧ l ≠ [] ∧ t' = t.erase l := by
  obtain ⟨l, e, led, file⟩ := exists_at?_of_isFile file
  obtain ⟨l', d, linked, below, rfl⟩ := remove_eq_ok h
  obtain rfl : l' = l := by
    have found := goal_of_find (linkAt?_eq_ok_iff.mp linked)
    rw [plain, goal_of_at? led] at found
    exact (Option.some.inj found).symm
  obtain ⟨content, mark, rfl⟩ := isFile_entry_iff.mp file
  exact ⟨l', content, mark, led, below, rfl⟩

namespace Changed

theorem refl (t : FileTree) : Changed written removed t t where
  workingDirectory := rfl
  links _ := rfl
  directories _ h := h
  stays _ content mark h _ := ⟨content, mark, h⟩
  news _ _ _ h _ := h
  listed _ _ := rfl

theorem trans (h₁₂ : Changed written removed t₁ t₂) (h₂₃ : Changed written removed t₂ t₃) :
    Changed written removed t₁ t₃ where
  workingDirectory := h₂₃.workingDirectory.trans h₁₂.workingDirectory
  links l := (h₂₃.links l).trans (h₁₂.links l)
  directories l h := h₂₃.directories l (h₁₂.directories l h)
  stays l content mark h kept := by
    obtain ⟨content', mark', there⟩ := h₁₂.stays l content mark h kept
    exact h₂₃.stays l content' mark' there kept
  news l content mark h unwritten :=
    h₁₂.news l content mark (h₂₃.news l content mark h unwritten) unwritten
  listed q hq := (h₂₃.listed q hq).trans (h₁₂.listed q hq)

theorem mono {written' removed' : Location → Prop} (h : Changed written removed t t')
    (writes : ∀ l, written l → written' l) (removes : ∀ l, removed l → removed' l) :
    Changed written' removed' t t' where
  workingDirectory := h.workingDirectory
  links := h.links
  directories := h.directories
  stays l content mark there kept := h.stays l content mark there (kept ∘ removes l)
  news l content mark there unwritten := h.news l content mark there (unwritten ∘ writes l)
  listed q hq := h.listed q fun x hx =>
    ⟨(hq x hx).1, (hq x hx).2.1 ∘ writes x.1, (hq x hx).2.2 ∘ removes x.1⟩

theorem goal (h : Changed written removed t t') (last : Bool) (p : Path) :
    t'.goal last p = t.goal last p :=
  goal_congr h.links h.workingDirectory last p

/-- A file at a location that is neither written nor removed is as it was. -/
theorem file {content : Content} {mark : Bool} (h : Changed written removed t t')
    (there : t.get? l = some (.file content mark)) (unwritten : ¬written l) (kept : ¬removed l) :
    t'.get? l = some (.file content mark) := by
  obtain ⟨content', mark', there'⟩ := h.stays l content mark there kept
  rw [there', ← there, h.news l content' mark' there' unwritten]

/-- Whatever is not removed is there, and only files can be others. -/
theorem entry (h : Changed written removed t t') (there : t.get? l = some e)
    (kept : e.isFile = true → ¬removed l) :
    ∃ e', t'.get? l = some e' ∧ (e' = e ∨ e.isFile = true ∧ e'.isFile = true) := by
  cases e with
  | directory => exact ⟨.directory, h.directories l there, .inl rfl⟩
  | link target =>
    have link := (h.links l).trans (linkTo?_eq_some_iff.mpr there)
    exact ⟨.link target, linkTo?_eq_some_iff.mp link, .inl rfl⟩
  | file content mark =>
    obtain ⟨content', mark', there'⟩ := h.stays l content mark there (kept rfl)
    exact ⟨_, there', .inr ⟨rfl, rfl⟩⟩

theorem followed {e' : Entry} (h : Changed written removed t t')
    {again again' : Location → List Step → Except FileError Place}
    (goOn : ∀ k steps, again k steps = .ok (.taken l e) → again' k steps = .ok (.taken l e'))
    (there' : t'.get? l = some e') (alike : e' = e ∨ e.isFile = true ∧ e'.isFile = true)
    (f : Followed t true again k steps (.taken l e)) :
    Followed t' true again' k steps (.taken l e') := by
  induction steps generalizing k with
  | nil =>
    cases f with
    | here there => exact .here there'
  | cons step rest ih =>
    cases f with
    | stay directory on => exact .stay (h.directories _ directory) (ih on)
    | up directory on => exact .up (h.directories _ directory) (ih on)
    | link _ _ _ stop => exact absurd stop (by decide)
    | target directory short there go full on =>
      have link := (h.links _).trans (linkTo?_eq_some_iff.mpr there)
      exact .target (h.directories _ directory) short (linkTo?_eq_some_iff.mp link) go full
        (goOn _ _ on)
    | @enter _ name _ _ d directory short there entry on =>
      have stepped := ih on
      by_cases stop : rest = []
      · subst stop
        cases on with
        | here here =>
          obtain rfl : d = e := Option.some.inj (there.symm.trans here)
          refine .enter (h.directories _ directory) short there' (fun target link => ?_) stepped
          rcases alike with rfl | ⟨-, file⟩
          · exact entry target link
          · rw [link] at file
            exact Bool.false_ne_true file
      · exact .enter (h.directories _ directory) short (stepped.directory stop) nofun stepped

/-- A path leads where it led, unless a file that is there was removed. -/
theorem at? (h : Changed written removed t t') (led : t.at? p = .ok (l, e))
    (kept : e.isFile = true → ¬removed l) :
    ∃ e', t'.at? p = .ok (l, e') ∧ (e' = e ∨ e.isFile = true ∧ e'.isFile = true) := by
  obtain ⟨e', there', alike⟩ := h.entry (get?_of_at? led) kept
  refine ⟨e', ?_, alike⟩
  have walked : ∀ links k steps, walk t true links k steps = .ok (.taken l e) →
      walk t' true links k steps = .ok (.taken l e') := by
    intro links
    induction links with
    | zero => intro k steps h; simp [walk] at h
    | succ links ih =>
      intro k steps walked
      exact follow_of_followed (h.followed ih there' alike (followed_of_follow walked))
  have found := at?_eq_ok_iff.mp led
  have usable := usable_of_find found
  rw [find_eq_walk usable] at found
  rw [at?_eq_ok_iff, find_eq_walk usable, h.workingDirectory]
  exact walked _ _ _ found

theorem at?_directory (h : Changed written removed t t') (led : t.at? p = .ok (l, .directory)) :
    t'.at? p = .ok (l, .directory) := by
  obtain ⟨e', led', rfl | ⟨file, -⟩⟩ := h.at? led nofun
  · exact led'
  · exact absurd file Bool.false_ne_true

/-- A path to a file leads to the same file, if nothing was done where it heads for. -/
theorem at?_file {content : Content} {mark : Bool} (h : Changed written removed t t')
    (led : t.at? p = .ok (l, .file content mark))
    (spared : ∀ l, t.goal true p = some l → ¬written l ∧ ¬removed l) :
    t'.at? p = .ok (l, .file content mark) := by
  obtain ⟨unwritten, kept⟩ := spared l (goal_of_at? led)
  obtain ⟨e', led', -⟩ := h.at? led fun _ => kept
  have same := h.file (get?_of_at? led) unwritten kept
  rw [get?_of_at? led'] at same
  rw [led', Option.some.inj same]

/-! ## Operations -/

/-- A directory that is made where nothing was changes no file. -/
theorem put_directory (free : t.get? l = none) (below : l ≠ []) :
    Changed written removed t (t.put l .directory) where
  workingDirectory := rfl
  links k := by
    by_cases same : k = l
    · subst same
      rw [linkTo?, linkTo?, get?_put t k k _ below, if_pos rfl, free]
    · rw [linkTo?, linkTo?, get?_put t l k _ below, if_neg same]
  directories k there := by
    rw [get?_put t l k _ below]
    split
    · rfl
    · exact there
  stays k content mark there _ := by
    have other : k ≠ l := by
      rintro rfl
      exact absurd (free.symm.trans there) nofun
    exact ⟨content, mark, by rw [get?_put t l k _ below, if_neg other, there]⟩
  news k content mark there _ := by
    rw [get?_put t l k _ below] at there
    split at there
    · exact absurd there nofun
    · exact there
  listed q hq := by
    refine filter_putIn ?_ fun d hd => ?_
    · by_contra chosen
      exact Bool.false_ne_true (hq (l, .directory) (by simpa using chosen)).1
    · rw [get?, if_neg below, List.lookup_eq_none_iff] at free
      exact absurd (free _ hd) (by simp)

/-- A file that is written where nothing was, or a file, changes that file only. -/
theorem put_file {content : Content} {mark : Bool} (below : l ≠ [])
    (free : ∀ e, t.get? l = some e → e.isFile = true) (here : written l) :
    Changed written removed t (t.put l (.file content mark)) where
  workingDirectory := rfl
  links k := by
    by_cases same : k = l
    · subst same
      rw [linkTo?_eq_none fun target => by simp [get?_put t k k _ below],
        linkTo?_eq_none fun target link => Bool.false_ne_true (free _ link)]
    · rw [linkTo?, linkTo?, get?_put t l k _ below, if_neg same]
  directories k there := by
    rw [get?_put t l k _ below]
    split
    · rename_i same
      exact absurd (free .directory (same ▸ there)) Bool.false_ne_true
    · exact there
  stays k content' mark' there _ := by
    rw [get?_put t l k _ below]
    split
    · exact ⟨content, mark, rfl⟩
    · exact ⟨content', mark', there⟩
  news k content' mark' there unwritten := by
    rw [get?_put t l k _ below] at there
    split at there
    · rename_i same
      exact absurd (same ▸ here) unwritten
    · exact there
  listed q hq := by
    have passed (d : Entry) : q (l, d) = false := by
      by_contra chosen
      exact (hq _ (by simpa using chosen)).2.1 here
    exact filter_putIn (passed _) fun d _ => passed d

/-- A file that is taken away changes no other. -/
theorem erase_file {content : Content} {mark : Bool} (there : t.get? l = some (.file content mark))
    (below : l ≠ []) (here : removed l) : Changed written removed t (t.erase l) where
  workingDirectory := rfl
  links k := by
    by_cases same : k = l
    · subst same
      rw [linkTo?, linkTo?, get?_erase below, if_pos rfl, there]
    · rw [linkTo?, linkTo?, get?_erase below, if_neg same]
  directories k directory := by
    have other : k ≠ l := by
      rintro rfl
      exact absurd (directory.symm.trans there) nofun
    rw [get?_erase below, if_neg other, directory]
  stays k content' mark' there' kept := by
    have other : k ≠ l := by
      rintro rfl
      exact kept here
    exact ⟨content', mark', by rw [get?_erase below, if_neg other, there']⟩
  news k content' mark' there' _ := by
    rw [get?_erase below] at there'
    split at there'
    · exact absurd there' nofun
    · exact there'
  listed q hq := by
    rw [erase, List.filter_filter]
    refine List.filter_congr fun x _ => ?_
    by_cases chosen : q x = true
    · have other : x.1 ≠ l := by
        intro same
        exact (hq x chosen).2.2 (same ▸ here)
      simp [chosen, other]
    · simp [chosen]

theorem makeAll (p : Path) : Changed written removed t (t.makeAll p).2 :=
  makeAll_induction (fun _ _ h free below => h.trans (put_directory free below)) p (.refl t)

/-- What is written to a path changes the file that the path heads for. -/
theorem wrote {content : Content} (h : Wrote t p content t')
    (inside : ∀ l, t.goal true p = some l → written l) : Changed written removed t t' := by
  obtain ⟨place, mark, found, rfl, file⟩ := h
  obtain ⟨below, free⟩ := Wrote.isFree found file
  exact put_file below free (inside _ (goal_of_find found))

/-- What is removed is the file that a path heads for, unless the path names a link. -/
theorem remove (h : t.remove p = .ok t') (file : t.isFile p = true)
    (plain : t.goal false p = t.goal true p) (inside : ∀ l, t.goal true p = some l → removed l) :
    Changed written removed t t' := by
  obtain ⟨l, content, mark, led, below, rfl⟩ := remove_file_eq_ok h file plain
  exact erase_file (get?_of_at? led) below (inside l (goal_of_at? led))

end Changed

/-! ## What a pattern finds -/

theorem eq_append_of_nameIn? {name : Text} (h : nameIn? l k = some name) : k = l ++ [name] := by
  unfold nameIn? at h
  split at h
  · rename_i above
    rw [← above]
    exact (List.dropLast_append_getLast? name h).symm
  · simp at h

/-- What is read off the other files is read off as before. -/
theorem Changed.filterMap_entries {α : Type} {f : Location × Entry → Option α}
    (h : Changed written removed t t')
    (apart : ∀ x, f x ≠ none → x.2.isFile = true ∧ ¬written x.1 ∧ ¬removed x.1) :
    t'.entries.filterMap f = t.entries.filterMap f := by
  have cut (es : List (Location × Entry)) :
      (es.filter fun x => (f x).isSome).filterMap f = es.filterMap f := by
    rw [List.filterMap_filter]
    refine List.filterMap_congr fun x _ => ?_
    cases f x <;> rfl
  rw [← cut, ← cut t.entries, h.listed]
  exact fun x chosen => apart x (Option.isSome_iff_ne_none.mp chosen)

/-- A pattern finds the files that it found, if no name that it admits was written to or removed in
the directory. -/
theorem Changed.select (h : Changed written removed t t') {pattern : Pattern}
    (hidden : ∀ name, pattern.admits name = true →
      ¬written (l ++ [name]) ∧ ¬removed (l ++ [name])) :
    pattern.select (t'.children l) = pattern.select (t.children l) := by
  rw [Pattern.select, Pattern.select, children, children, List.filterMap_filterMap,
    List.filterMap_filterMap, h.filterMap_entries]
  rintro ⟨k, e⟩ chosen
  cases inside : nameIn? l k with
  | none => simp [inside] at chosen
  | some name =>
    by_cases both : (e.isFile && pattern.admits name) = true
    · rw [Bool.and_eq_true] at both
      rw [eq_append_of_nameIn? inside]
      exact ⟨both.1, hidden name both.2⟩
    · simp only [inside, Option.map_some, Option.bind_some, if_neg both] at chosen
      exact absurd rfl chosen

end NativeFreeze.FileTree
