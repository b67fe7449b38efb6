import NativeFreeze.Proofs.Text.Replace
import NativeFreeze.Proofs.Text.Split

/-!
# Cutting a text where a word stands

A text is cut in front of each occurrence of a word. The pieces behind the first start with the word.
Where the word does not occur nothing is cut, and a character that the word does not have keeps what
is before it from what is behind.
-/

namespace NativeFreeze.Text

variable {word s t front rest piece : Text} {c : Char} {k : Nat}

/-- A text cut in front of each occurrence of a word; `k` counts the characters to be passed over. -/
def cuts (word : Text) (k : Nat) (s : Text) : List Text :=
  cutsFrom (fun s => word.isPrefixOf s) word.length k s

theorem cuts_ne_nil (word : Text) (k : Nat) (s : Text) : cuts word k s ≠ [] := by
  cases s with
  | nil => cases k <;> exact List.cons_ne_nil _ _
  | cons c r =>
    cases k with
    | succ k => exact consFirst_ne_nil c _
    | zero =>
      rw [cuts, cutsFrom]
      split
      · exact List.cons_ne_nil _ _
      · exact consFirst_ne_nil c _

/-- A text is cut where a text of other characters is cut that are found in the same places. -/
theorem map_cutsFrom (f : Char → Char) (hit : Text → Bool) (width k : Nat) (s : Text) :
    (cutsFrom (fun s => hit (s.map f)) width k s).map (List.map f) =
      cutsFrom hit width k (s.map f) := by
  have first (c : Char) (pieces : List Text) :
      (consFirst c pieces).map (List.map f) = consFirst (f c) (pieces.map (List.map f)) := by
    cases pieces <;> rfl
  induction s generalizing k with
  | nil => cases k <;> rfl
  | cons c s ih =>
    cases k with
    | succ k => rw [cutsFrom, first, ih, List.map_cons, cutsFrom]
    | zero =>
      rw [List.map_cons, cutsFrom, cutsFrom, List.map_cons]
      split
      · rw [List.map_cons, first, ih]
        rfl
      · rw [first, ih]

theorem flatten_cuts (word : Text) (k : Nat) (s : Text) : (cuts word k s).flatten = s :=
  flatten_cutsFrom _ _ k s

theorem cuts_nil (word : Text) (k : Nat) : cuts word k [] = [[]] := by
  cases k <;> rfl

theorem cuts_succ (word : Text) (k : Nat) (c : Char) (s : Text) :
    cuts word (k + 1) (c :: s) = (cuts word k s).modifyHead (c :: ·) :=
  consFirst_eq_modifyHead c (cuts_ne_nil word k s)

theorem cuts_of_miss (miss : word.isPrefixOf (c :: s) = false) :
    cuts word 0 (c :: s) = (cuts word 0 s).modifyHead (c :: ·) := by
  rw [cuts, cutsFrom, miss, if_neg Bool.false_ne_true]
  exact consFirst_eq_modifyHead c (cuts_ne_nil word 0 s)

theorem cuts_of_hit (hit : word.isPrefixOf (c :: s) = true) :
    cuts word 0 (c :: s) = [] :: (cuts word (word.length - 1) s).modifyHead (c :: ·) := by
  rw [cuts, cutsFrom, hit, if_pos rfl]
  exact congrArg _ (consFirst_eq_modifyHead c (cuts_ne_nil word _ s))

/-- What is passed over is in the first piece. -/
theorem cuts_append_length (word s t : Text) :
    cuts word s.length (s ++ t) = (cuts word 0 t).modifyHead (s ++ ·) := by
  induction s with
  | nil => cases h : cuts word 0 t <;> simp [h]
  | cons c s ih =>
    rw [List.length_cons, List.cons_append, cuts_succ, ih]
    cases cuts word 0 t <;> rfl

/-- A text that starts with the word is cut there. -/
theorem cuts_append (full : word ≠ []) (t : Text) :
    cuts word 0 (word ++ t) = [] :: (cuts word 0 t).modifyHead (word ++ ·) := by
  obtain ⟨c, r, rfl⟩ := List.exists_cons_of_ne_nil full
  have hit : (c :: r).isPrefixOf (c :: (r ++ t)) = true :=
    List.isPrefixOf_iff_prefix.mpr (List.prefix_append (c :: r) t)
  rw [List.cons_append, cuts_of_hit hit, List.length_cons, Nat.add_sub_cancel, cuts_append_length]
  cases cuts (c :: r) 0 t <;> rfl

theorem cuts_eq_singleton (none : holds word s = false) : cuts word 0 s = [s] := by
  induction s with
  | nil => exact cuts_nil word 0
  | cons c s ih =>
    rw [holds_cons, Bool.or_eq_false_iff] at none
    rw [cuts_of_miss none.1, ih none.2]
    rfl

/-- Nothing is cut before a character that the word does not have if the word does not occur there. -/
theorem cuts_append_of_holds (none : holds word s = false) (hc : c ∉ word) (t : Text) :
    cuts word 0 (s ++ c :: t) = (cuts word 0 (c :: t)).modifyHead (s ++ ·) := by
  induction s with
  | nil => cases h : cuts word 0 (c :: t) <;> simp [h]
  | cons d s ih =>
    rw [holds_cons, Bool.or_eq_false_iff] at none
    have miss : word.isPrefixOf (d :: (s ++ c :: t)) = false :=
      (isPrefixOf_append_cons hc (d :: s) t).trans none.1
    rw [List.cons_append, cuts_of_miss miss, ih none.2]
    cases cuts word 0 (c :: t) <;> rfl

theorem cuts_cons (hc : c ∉ word) (full : word ≠ []) (t : Text) :
    cuts word 0 (c :: t) = (cuts word 0 t).modifyHead (c :: ·) :=
  cuts_of_miss (isPrefixOf_cons_eq_false hc full t)

/-- Where a cut stands behind a character that the word does not have, both sides are cut on their
own. -/
theorem cuts_append_cons (hc : c ∉ word) (full : word ≠ []) {more : List Text}
    (cut : cuts word 0 t = [] :: more) (hk : k ≤ s.length) :
    cuts word k (s ++ c :: t) = cuts word k (s ++ [c]) ++ more := by
  induction s generalizing k with
  | nil =>
    obtain rfl : k = 0 := Nat.le_zero.mp hk
    rw [List.nil_append, List.nil_append, cuts_cons hc full, cuts_cons hc full, cut, cuts_nil]
    rfl
  | cons d s ih =>
    have split (j : Nat) (hj : j ≤ s.length) :
        (cuts word j (s ++ c :: t)).modifyHead (d :: ·) =
          (cuts word j (s ++ [c])).modifyHead (d :: ·) ++ more := by
      rw [ih hj]
      obtain ⟨first, others, some⟩ := List.exists_cons_of_ne_nil (cuts_ne_nil word j (s ++ [c]))
      simp [some]
    cases k with
    | succ k =>
      rw [List.cons_append, List.cons_append, cuts_succ, cuts_succ]
      exact split k (Nat.le_of_succ_le_succ hk)
    | zero =>
      have both : word.isPrefixOf (d :: (s ++ c :: t)) = word.isPrefixOf (d :: (s ++ [c])) :=
        (isPrefixOf_append_cons hc (d :: s) t).trans (isPrefixOf_append_cons hc (d :: s) []).symm
      cases hit : word.isPrefixOf (d :: (s ++ [c])) with
      | false =>
        rw [List.cons_append, List.cons_append, cuts_of_miss hit, cuts_of_miss (both.trans hit)]
        exact split 0 (Nat.zero_le _)
      | true =>
        have inside : word <+: d :: s := by
          rw [← List.isPrefixOf_iff_prefix]
          exact (isPrefixOf_append_cons hc (d :: s) []).symm.trans hit
        have short := inside.length_le
        rw [List.cons_append, List.cons_append, cuts_of_hit hit, cuts_of_hit (both.trans hit),
          List.cons_append]
        exact congrArg _ (split _ (by simp only [List.length_cons] at short; omega))

theorem take_isPrefix_head {first : Text} {more : List Text} (h : cuts word k s = first :: more) :
    s.take k <+: first := by
  induction s generalizing k first more with
  | nil => simp
  | cons c s ih =>
    cases k with
    | zero => simp
    | succ k =>
      obtain ⟨head, others, some⟩ := List.exists_cons_of_ne_nil (cuts_ne_nil word k s)
      rw [cuts_succ, some] at h
      obtain ⟨rfl, -⟩ := List.cons.inj h
      exact (List.prefix_cons_inj c).mpr (ih some)

/-- The pieces behind the first start with the word. -/
theorem isPrefix_of_mem_tail (h : piece ∈ (cuts word k s).tail) : word <+: piece := by
  have later (c : Char) (k : Nat) (s : Text)
      (ih : piece ∈ (cuts word k s).tail → word <+: piece)
      (h : piece ∈ ((cuts word k s).modifyHead (c :: ·)).tail) : word <+: piece := by
    cases cut : cuts word k s with
    | nil => exact absurd cut (cuts_ne_nil word k s)
    | cons first more => exact ih (by simpa [cut] using h)
  induction s generalizing k with
  | nil => simp [cuts_nil] at h
  | cons c s ih =>
    cases k with
    | succ k => exact later c k s ih (cuts_succ word k c s ▸ h)
    | zero =>
      cases hit : word.isPrefixOf (c :: s) with
      | false => exact later c 0 s ih (cuts_of_miss hit ▸ h)
      | true =>
        rw [cuts_of_hit hit, List.tail_cons] at h
        cases cut : cuts word (word.length - 1) s with
        | nil => exact absurd cut (cuts_ne_nil word _ s)
        | cons first more =>
          rcases List.mem_cons.mp (by simpa [cut] using h : piece ∈ (c :: first) :: more) with rfl | h
          · have start := take_isPrefix_head cut
            have whole : word <+: c :: s := List.isPrefixOf_iff_prefix.mp hit
            cases word with
            | nil => exact List.nil_prefix
            | cons d word =>
              obtain ⟨rfl, within⟩ := List.cons_prefix_cons.mp whole
              have same : s.take word.length = word := (List.prefix_iff_eq_take.mp within).symm
              exact List.cons_prefix_cons.mpr ⟨rfl, same ▸ start⟩
          · have inside : piece ∈ (cuts word (word.length - 1) s).tail := by simpa [cut] using h
            exact ih inside

end NativeFreeze.Text
