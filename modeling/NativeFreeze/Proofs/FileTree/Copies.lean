import NativeFreeze.Proofs.FileTree.Footprint

/-!
# Files that are copied one after the other

A file is written where its path heads for, and every path that heads elsewhere holds what it held. So
after some copies a path holds what the last copy to its place has brought there. If no source stands
where a copy goes, all targets hold what their sources held exactly if sources that go to one place hold
the same.
-/

namespace NativeFreeze.FileTree

variable {t t' t₁ : FileTree} {k l l' : Location} {e : Entry} {steps : List Step}
  {p q source target : Path} {content other : Content} {mark : Bool} {pairs : List (Path × Path)}

/-! ## What a path holds -/

/-- The path leads to a file with the content. -/
def Holds (t : FileTree) (p : Path) (content : Content) : Prop :=
  ∃ l mark, t.at? p = .ok (l, .file content mark)

theorem read_eq_ok_iff {bytes : Bytes} :
    t.read p = .ok bytes ↔ ∃ content, t.Holds p content ∧ content.bytes = bytes := by
  constructor
  · intro h
    unfold read at h
    split at h
    · rename_i l content mark there
      exact ⟨content, ⟨l, mark, there⟩, Except.ok.inj h⟩
    · simp at h
    · simp at h
  · rintro ⟨content, ⟨l, mark, there⟩, rfl⟩
    rw [read, there]

/-- Paths that head for one place hold the same. -/
theorem Holds.unique (hp : t.Holds p content) (hq : t.Holds q other)
    (same : t.goal true p = t.goal true q) : content = other := by
  obtain ⟨l, mark, led⟩ := hp
  obtain ⟨l', mark', led'⟩ := hq
  rw [goal_of_at? led, goal_of_at? led', Option.some.injEq] at same
  subst same
  have entry := (get?_of_at? led).symm.trans (get?_of_at? led')
  exact (Entry.file.inj (Option.some.inj entry)).1

/-! ## What a write leaves -/

/-- A way to a place other than the one where a file was put was there before. -/
theorem Followed.of_put {again again' : Location → List Step → Except FileError Place} (hl : l ≠ [])
    (goOn : ∀ k steps, again' k steps = .ok (.taken l' e) → again k steps = .ok (.taken l' e))
    (other : l' ≠ l)
    (h : Followed (t.put l (.file content mark)) true again' k steps (.taken l' e)) :
    Followed t true again k steps (.taken l' e) := by
  have at_l : (t.put l (.file content mark)).get? l = some (.file content mark) := by
    rw [get?_put t l l _ hl, if_pos rfl]
  have before {k : Location} {d : Entry} (ne : k ≠ l)
      (there : (t.put l (.file content mark)).get? k = some d) : t.get? k = some d := by
    rwa [get?_put t l k _ hl, if_neg ne] at there
  have kept {k : Location} {d : Entry} (there : (t.put l (.file content mark)).get? k = some d)
      (hd : d.isFile = false) : t.get? k = some d := by
    refine before ?_ there
    rintro rfl
    rw [at_l, Option.some.injEq] at there
    exact Bool.false_ne_true (hd.symm.trans (there ▸ rfl))
  induction steps generalizing k with
  | nil =>
    cases h with
    | here there => exact .here (before other there)
  | cons step rest ih =>
    cases h with
    | stay directory on => exact .stay (kept directory rfl) (ih on)
    | up directory on => exact .up (kept directory rfl) (ih on)
    | link _ _ _ stop => exact absurd stop (by decide)
    | target directory short there go full on =>
      exact .target (kept directory rfl) short (kept there rfl) go full (goOn _ _ on)
    | @enter _ name _ _ d directory short there entry on =>
      by_cases here : k ++ [name] = l
      · -- The steps would have to end at the file.
        by_cases stop : rest = []
        · subst stop
          cases on with
          | here _ => exact absurd here other
        · rw [here] at on
          exact absurd (at_l.symm.trans (on.directory stop)) nofun
      · exact .enter (kept directory rfl) short (before here there) entry (ih on)

theorem at?_of_put (hl : l ≠ []) (other : l' ≠ l)
    (h : (t.put l (.file content mark)).at? p = .ok (l', e)) : t.at? p = .ok (l', e) := by
  have walked : ∀ links k steps,
      walk (t.put l (.file content mark)) true links k steps = .ok (.taken l' e) →
        walk t true links k steps = .ok (.taken l' e) := by
    intro links
    induction links with
    | zero => intro k steps h; simp [walk] at h
    | succ links ih =>
      intro k steps h
      exact follow_of_followed ((followed_of_follow h).of_put hl ih other)
  have found := at?_eq_ok_iff.mp h
  have usable := usable_of_find found
  rw [find_eq_walk usable] at found
  rw [at?_eq_ok_iff, find_eq_walk usable]
  exact walked _ _ _ found

/-- `t'` is `t` except for what stands where `p` heads for. -/
structure Rewritten (p : Path) (t t' : FileTree) : Prop where
  goal : ∀ q, t'.goal true q = t.goal true q
  holds : ∀ q content, t.goal true q ≠ t.goal true p → (t'.Holds q content ↔ t.Holds q content)
  stays : ∀ q old, t.Holds q old → ∃ new, t'.Holds q new

namespace Rewritten

theorem refl (p : Path) (t : FileTree) : Rewritten p t t :=
  ⟨fun _ => rfl, fun _ _ _ => Iff.rfl, fun _ old held => ⟨old, held⟩⟩

theorem trans (h : Rewritten p t t₁) (h' : Rewritten p t₁ t') : Rewritten p t t' where
  goal q := (h'.goal q).trans (h.goal q)
  holds q content apart := by
    have apart₁ : t₁.goal true q ≠ t₁.goal true p := by rwa [h.goal, h.goal]
    exact (h'.holds q content apart₁).trans (h.holds q content apart)
  stays q old held := by
    obtain ⟨new, held⟩ := h.stays q old held
    exact h'.stays q new held

theorem read_eq_ok_iff {bytes : Bytes} (h : Rewritten p t t')
    (apart : t.goal true q ≠ t.goal true p) : t'.read q = .ok bytes ↔ t.read q = .ok bytes := by
  simp only [FileTree.read_eq_ok_iff, h.holds q _ apart]

/-- A path to the place holds what the path that was written to holds. -/
theorem holds_of_same (h : Rewritten p t t') (written : t'.Holds p content) (held : t.Holds q other)
    (same : t.goal true q = t.goal true p) : t'.Holds q content := by
  obtain ⟨new, there⟩ := h.stays q other held
  have alike : t'.goal true q = t'.goal true p := by rw [h.goal, h.goal, same]
  exact there.unique written alike ▸ there

end Rewritten

theorem Wrote.holds (h : Wrote t p content t') : t'.Holds p content :=
  h.at?

theorem Wrote.rewritten (h : Wrote t p content t') : Rewritten p t t' := by
  have changed : Changed (fun l => t.goal true p = some l) (fun _ => False) t t' :=
    .wrote h fun _ heads => heads
  refine ⟨changed.goal true, fun q old apart => ⟨?_, ?_⟩, ?_⟩
  · rintro ⟨l, mark, led⟩
    have heads : t.goal true q = some l := (changed.goal true q).symm.trans (goal_of_at? led)
    obtain ⟨place, mark', found, rfl, file⟩ := h
    have other : l ≠ place.location := by
      rintro rfl
      exact apart (heads.trans (goal_of_find found).symm)
    exact ⟨l, mark, at?_of_put (isFree found file).1 other led⟩
  · rintro ⟨l, mark, led⟩
    refine ⟨l, mark, changed.at?_file led fun l heads => ⟨?_, not_false⟩⟩
    exact fun written => apart (heads.trans written.symm)
  · rintro q old ⟨l, mark, led⟩
    obtain ⟨e, led', file⟩ := changed.at? led fun _ => not_false
    rcases file with rfl | ⟨-, file⟩
    · exact ⟨old, l, mark, led'⟩
    · obtain ⟨new, mark', rfl⟩ := isFile_entry_iff.mp file
      exact ⟨new, l, mark', led'⟩

/-! ## Copies -/

/-- A copy writes what the source holds to the place of the target, or empties the file if that is where
the source stands. -/
theorem copy_eq_ok (h : t.copy source target = .ok t') :
    ∃ l content mark place, t.at? source = .ok (l, .file content mark) ∧
      t.find true target = .ok place ∧
      (∀ e, place = .taken place.location e → e.isFile = true) ∧
      t' = t.put place.location
        (.file (if place.location = l then .plain [] else content) mark) := by
  unfold copy at h
  split at h
  · simp at h
  · rename_i l content mark there
    split at h
    · simp at h
    · rename_i k old executable found
      split at h
      · simp at h
      · refine ⟨l, content, mark, _, there, found, ?_, (Except.ok.inj h).symm⟩
        rintro e he
        obtain ⟨-, rfl⟩ := Place.taken.inj he
        rfl
    · simp at h
    · rename_i k found
      split at h
      · simp at h
      · have other : k ≠ l := by
          rintro rfl
          exact absurd ((find_in found).1.symm.trans (get?_of_at? there)) nofun
        refine ⟨l, content, mark, _, there, found, nofun, ?_⟩
        simpa [Place.location, other, eq_comm] using h
  · simp at h

/-- A copy to another place than its own is a write of what the source holds. -/
theorem exists_wrote_of_copy (h : t.copy source target = .ok t')
    (apart : t.goal true source ≠ t.goal true target) :
    ∃ content, t.Holds source content ∧ Wrote t target content t' := by
  obtain ⟨l, content, mark, place, there, found, file, rfl⟩ := copy_eq_ok h
  rw [goal_of_at? there, goal_of_find found, ne_eq, Option.some.injEq] at apart
  exact ⟨content, ⟨l, mark, there⟩, place, mark, found, by rw [if_neg (Ne.symm apart)], file⟩

/-- Copies from sources to targets, one after the other, lead from `t` to `t'`. -/
inductive Copied : FileTree → List (Path × Path) → FileTree → Prop
  | nil {t : FileTree} : Copied t [] t
  | cons {t t₁ t' : FileTree} {c : Path × Path} {pairs : List (Path × Path)}
      (first : t.copy c.1 c.2 = .ok t₁) (others : Copied t₁ pairs t') : Copied t (c :: pairs) t'

/-- No source stands where a target heads for. -/
def Spared (t : FileTree) (pairs : List (Path × Path)) : Prop :=
  ∀ c ∈ pairs, ∀ d ∈ pairs, t.goal true c.1 ≠ t.goal true d.2

/-- Sources whose targets head for one place hold the same. -/
def Agree (t : FileTree) (pairs : List (Path × Path)) : Prop :=
  ∀ c ∈ pairs, ∀ d ∈ pairs, t.goal true c.2 = t.goal true d.2 →
    ∀ content, t.Holds c.1 content ↔ t.Holds d.1 content

instance (t : FileTree) (pairs : List (Path × Path)) : Decidable (t.Spared pairs) :=
  inferInstanceAs (Decidable (∀ c ∈ pairs, ∀ d ∈ pairs, t.goal true c.1 ≠ t.goal true d.2))

/-- A write away from all sources changes nothing about which of them agree. -/
theorem Rewritten.agree_iff (rewritten : Rewritten p t t')
    (apart : ∀ c ∈ pairs, t.goal true c.1 ≠ t.goal true p) : t'.Agree pairs ↔ t.Agree pairs := by
  have pair (c) (hc : c ∈ pairs) (d) (hd : d ∈ pairs) :
      (t'.goal true c.2 = t'.goal true d.2 →
          ∀ content, t'.Holds c.1 content ↔ t'.Holds d.1 content) ↔
        (t.goal true c.2 = t.goal true d.2 →
          ∀ content, t.Holds c.1 content ↔ t.Holds d.1 content) := by
    simp only [rewritten.goal, rewritten.holds c.1 _ (apart c hc),
      rewritten.holds d.1 _ (apart d hd)]
  exact ⟨fun agree c hc d hd => (pair c hc d hd).mp (agree c hc d hd),
    fun agree c hc d hd => (pair c hc d hd).mpr (agree c hc d hd)⟩

namespace Copied

variable {c : Path × Path}

/-- What the first of some copies does: it writes what its source holds, and what the other sources hold
stays. -/
theorem first_step (first : t.copy c.1 c.2 = .ok t₁) (spared : t.Spared (c :: pairs)) :
    ∃ content, t.Holds c.1 content ∧ t₁.Holds c.2 content ∧ Rewritten c.2 t t₁ ∧
      t₁.Spared pairs ∧ ∀ d ∈ pairs, ∀ old, t₁.Holds d.1 old ↔ t.Holds d.1 old := by
  obtain ⟨content, held, wrote⟩ :=
    exists_wrote_of_copy first (spared c List.mem_cons_self c List.mem_cons_self)
  have rewritten := wrote.rewritten
  refine ⟨content, held, wrote.holds, rewritten, fun a ha b hb => ?_, fun d hd old => ?_⟩
  · rw [rewritten.goal, rewritten.goal]
    exact spared a (List.mem_cons_of_mem c ha) b (List.mem_cons_of_mem c hb)
  · exact rewritten.holds d.1 old (spared d (List.mem_cons_of_mem c hd) c List.mem_cons_self)

theorem goal (copied : Copied t pairs t') (spared : t.Spared pairs) (p : Path) :
    t'.goal true p = t.goal true p := by
  induction copied with
  | nil => rfl
  | cons first _ ih =>
    obtain ⟨_, -, -, rewritten, later, -⟩ := first_step first spared
    exact (ih later).trans (rewritten.goal p)

/-- Every source held something. -/
theorem exists_holds (copied : Copied t pairs t') (spared : t.Spared pairs) (hc : c ∈ pairs) :
    ∃ content, t.Holds c.1 content := by
  induction copied with
  | nil => exact absurd hc List.not_mem_nil
  | cons first _ ih =>
    obtain ⟨content, held, -, -, later, same⟩ := first_step first spared
    rcases List.mem_cons.mp hc with rfl | hc
    · exact ⟨content, held⟩
    · obtain ⟨content, held⟩ := ih later hc
      exact ⟨content, (same c hc content).mp held⟩

/-- A path holds what it held, if the copies that go to its place bring nothing else. -/
theorem keep (copied : Copied t pairs t') (spared : t.Spared pairs) (held : t.Holds p content)
    (alike : ∀ c ∈ pairs, t.goal true c.2 = t.goal true p → t.Holds c.1 content) :
    t'.Holds p content := by
  induction copied with
  | nil => exact held
  | @cons t t₁ t' c pairs first _ ih =>
    obtain ⟨new, source, target, rewritten, later, same⟩ := first_step first spared
    refine ih later ?_ fun d hd heads => ?_
    · by_cases here : t.goal true c.2 = t.goal true p
      · obtain rfl := source.unique (alike c List.mem_cons_self here) rfl
        exact rewritten.holds_of_same target held here.symm
      · exact (rewritten.holds p content (Ne.symm here)).mpr held
    · rw [rewritten.goal, rewritten.goal] at heads
      exact (same d hd content).mpr (alike d (List.mem_cons_of_mem c hd) heads)

/-- A target holds what its source held, if the sources that go to its place held the same. -/
theorem holds_target (copied : Copied t pairs t') (spared : t.Spared pairs) (agree : t.Agree pairs)
    (hc : c ∈ pairs) (held : t.Holds c.1 content) : t'.Holds c.2 content := by
  induction copied with
  | nil => exact absurd hc List.not_mem_nil
  | @cons t t₁ t' d pairs first others ih =>
    obtain ⟨new, source, target, rewritten, later, same⟩ := first_step first spared
    rcases List.mem_cons.mp hc with rfl | hc
    · obtain rfl := source.unique held rfl
      refine others.keep later target fun d hd heads => ?_
      rw [rewritten.goal, rewritten.goal] at heads
      exact (same d hd new).mpr
        ((agree d (List.mem_cons_of_mem c hd) c List.mem_cons_self heads new).mpr held)
    · refine ih later ((rewritten.agree_iff fun a ha => ?_).mpr fun a ha b hb => ?_) hc
        ((same c hc content).mpr held)
      · exact spared a (List.mem_cons_of_mem d ha) d List.mem_cons_self
      · exact agree a (List.mem_cons_of_mem d ha) b (List.mem_cons_of_mem d hb)

/-- All targets hold what their sources held exactly if sources that go to one place held the same. -/
theorem forall_holds_iff (copied : Copied t pairs t') (spared : t.Spared pairs) :
    (∀ c ∈ pairs, ∃ content, t.Holds c.1 content ∧ t'.Holds c.2 content) ↔ t.Agree pairs := by
  constructor
  · intro all c hc d hd heads content
    obtain ⟨new, source, target⟩ := all c hc
    obtain ⟨new', source', target'⟩ := all d hd
    have heads : t'.goal true c.2 = t'.goal true d.2 := by
      rw [copied.goal spared, copied.goal spared, heads]
    obtain rfl := target.unique target' heads
    constructor
    · intro held
      exact held.unique source rfl ▸ source'
    · intro held
      exact held.unique source' rfl ▸ source
  · intro agree c hc
    obtain ⟨content, held⟩ := copied.exists_holds spared hc
    exact ⟨content, held, copied.holds_target spared agree hc held⟩

end Copied

end NativeFreeze.FileTree
