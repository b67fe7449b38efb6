import NativeFreeze.Text.Basic

/-!
# Pieces of a text

Splitting and joining undo each other where they can. A text joined from segments splits into the
pieces of its segments, and a piece of a text that holds the separator is shorter than the text.
-/

namespace NativeFreeze.Text

variable {sep : Char} {s piece : Text}

theorem consFirst_eq_modifyHead (c : Char) {ps : List Text} (h : ps ≠ []) :
    consFirst c ps = ps.modifyHead (c :: ·) := by
  cases ps with
  | nil => exact absurd rfl h
  | cons p ps => rfl

theorem splitOn_eq_splitOnP (p : Char → Bool) (s : Text) : splitOn p s = List.splitOnP p s := by
  induction s with
  | nil => rfl
  | cons c r ih =>
    rw [splitOn, ih, List.splitOnP_cons_eq_if_modifyHead,
      consFirst_eq_modifyHead c (List.splitOnP_ne_nil p r)]

theorem split_eq_splitOn (sep : Char) (s : Text) : split sep s = List.splitOn sep s := by
  rw [split, splitOn_eq_splitOnP, List.splitOn_eq_splitOnP]

@[simp]
theorem split_ne_nil (sep : Char) (s : Text) : split sep s ≠ [] :=
  splitOn_ne_nil _ s

@[simp]
theorem join_split (sep : Char) (s : Text) : join [sep] (split sep s) = s := by
  rw [split_eq_splitOn]
  exact List.intercalate_splitOn sep

theorem split_eq_singleton (h : sep ∉ s) : split sep s = [s] := by
  rw [split_eq_splitOn, List.splitOn_eq_singleton h]

theorem splitOn_append {p : Char → Bool} {c : Char} (h : p c = true) (s t : Text) :
    splitOn p (s ++ c :: t) = splitOn p s ++ splitOn p t := by
  induction s with
  | nil => simp [splitOn, h]
  | cons d s ih =>
    rw [List.cons_append, splitOn, splitOn, ih]
    split
    · rfl
    · obtain ⟨first, rest, hs⟩ := List.exists_cons_of_ne_nil (splitOn_ne_nil p s)
      rw [hs]
      rfl

theorem split_append (sep : Char) (s t : Text) :
    split sep (s ++ sep :: t) = split sep s ++ split sep t := by
  apply splitOn_append
  simp

/-- What is added without a separator goes to the last piece. -/
theorem splitOn_append_of_forall {p : Char → Bool} {t : Text} (h : ∀ c ∈ t, p c = false)
    (s : Text) : ∃ front last, splitOn p s = front ++ [last] ∧
      splitOn p (s ++ t) = front ++ [last ++ t] := by
  have alone (t : Text) (h : ∀ c ∈ t, p c = false) : splitOn p t = [t] := by
    induction t with
    | nil => rfl
    | cons c t ih =>
      rw [List.forall_mem_cons] at h
      rw [splitOn, h.1, ih h.2]
      rfl
  induction s with
  | nil => exact ⟨[], [], rfl, alone t h⟩
  | cons c r ih =>
    obtain ⟨front, last, hr, ht⟩ := ih
    rw [List.cons_append, splitOn, splitOn, hr, ht]
    by_cases hc : p c = true
    · exact ⟨[] :: front, last, by rw [if_pos hc]; rfl, by rw [if_pos hc]; rfl⟩
    · cases front with
      | nil => exact ⟨[], c :: last, by rw [if_neg hc]; rfl, by rw [if_neg hc]; rfl⟩
      | cons f front =>
        exact ⟨(c :: f) :: front, last, by rw [if_neg hc]; rfl, by rw [if_neg hc]; rfl⟩

theorem split_append_of_not_mem {t : Text} (h : sep ∉ t) (s : Text) :
    ∃ front last, split sep s = front ++ [last] ∧ split sep (s ++ t) = front ++ [last ++ t] := by
  apply splitOn_append_of_forall
  intro c hc
  simpa using ne_of_mem_of_not_mem hc h

/-- The pieces of a joined text are those of its segments. -/
theorem split_join {segments : List Text} (h : segments ≠ []) :
    split sep (join [sep] segments) = segments.flatMap (split sep) := by
  induction segments with
  | nil => exact absurd rfl h
  | cons s rest ih =>
    cases rest with
    | nil => simp [join]
    | cons t rest =>
      have hj : join [sep] (s :: t :: rest) = s ++ sep :: join [sep] (t :: rest) := by
        simp [join]
      rw [hj, split_append, ih (List.cons_ne_nil t rest), List.flatMap_cons (x := s)]

/-- A joined text: the first segment, and each other one behind a separator. -/
theorem join_cons (s : Text) (segments : List Text) :
    join [sep] (s :: segments) = s ++ segments.flatMap (sep :: ·) := by
  induction segments generalizing s with
  | nil => simp [join]
  | cons t rest ih =>
    have hj : join [sep] (s :: t :: rest) = s ++ sep :: join [sep] (t :: rest) := by
      simp [join]
    rw [hj, ih, List.flatMap_cons, List.cons_append]

theorem mem_splitOn_cons {p : Char → Bool} {c : Char} (h : piece ∈ splitOn p (c :: s)) :
    piece = [] ∧ p c = true ∨ piece ∈ splitOn p s ∨
      p c = false ∧ ∃ rest ∈ splitOn p s, piece = c :: rest := by
  rw [splitOn] at h
  cases hc : p c with
  | true =>
    rw [hc, if_pos rfl, List.mem_cons] at h
    exact h.imp (⟨·, rfl⟩) .inl
  | false =>
    obtain ⟨first, rest, hs⟩ := List.exists_cons_of_ne_nil (splitOn_ne_nil p s)
    simp only [hc, hs, consFirst, Bool.false_eq_true, if_false, List.mem_cons] at h
    rcases h with rfl | h
    · exact .inr (.inr ⟨rfl, first, by simp [hs], rfl⟩)
    · exact .inr (.inl (by simp [hs, h]))

/-- No piece holds the separator. -/
theorem not_mem_of_mem_split (h : piece ∈ split sep s) : sep ∉ piece := by
  rw [split] at h
  induction s generalizing piece with
  | nil => simp_all [splitOn]
  | cons c r ih =>
    rcases mem_splitOn_cons h with ⟨rfl, -⟩ | h | ⟨hc, rest, hr, rfl⟩
    · exact List.not_mem_nil
    · exact ih h
    · have hc : sep ≠ c := fun e => by simp [e] at hc
      simp [hc, ih hr]

/-- Splitting loses the separators only. -/
theorem flatten_split (sep : Char) (s : Text) : (split sep s).flatten = s.filter (· != sep) := by
  rw [split]
  induction s with
  | nil => rfl
  | cons c r ih =>
    rw [splitOn]
    by_cases same : c = sep
    · simp [same, ih]
    · simp [same, ih]

theorem length_le_of_mem_split (h : piece ∈ split sep s) : piece.length ≤ s.length := by
  rw [split] at h
  induction s generalizing piece with
  | nil => simp_all [splitOn]
  | cons c r ih =>
    rcases mem_splitOn_cons h with ⟨rfl, -⟩ | h | ⟨-, rest, hr, rfl⟩
    · exact Nat.zero_le _
    · exact Nat.le_succ_of_le (ih h)
    · exact Nat.succ_le_succ (ih hr)

/-- A piece of a text that is cut is shorter than the text. -/
theorem length_lt_of_mem_split (hs : sep ∈ s) (h : piece ∈ split sep s) :
    piece.length < s.length := by
  obtain ⟨a, b, rfl⟩ := List.append_of_mem hs
  rw [split_append, List.mem_append] at h
  rw [List.length_append, List.length_cons]
  rcases h with h | h
  · have := length_le_of_mem_split h
    omega
  · have := length_le_of_mem_split h
    omega

theorem append_of_cutAt? {front rest : Text} (h : cutAt? sep s = some (front, rest)) :
    s = front ++ sep :: rest := by
  induction s generalizing front with
  | nil => simp [cutAt?] at h
  | cons c r ih =>
    by_cases hc : c = sep
    · obtain ⟨rfl, rfl⟩ : [] = front ∧ r = rest := by simpa [cutAt?, hc] using h
      rw [hc, List.nil_append]
    · simp only [cutAt?, hc, if_false, Option.map_eq_some_iff, Prod.exists, Prod.mk.injEq] at h
      obtain ⟨a, b, hab, rfl, rfl⟩ := h
      rw [ih hab, List.cons_append]

theorem not_mem_of_cutAt? {front rest : Text} (h : cutAt? sep s = some (front, rest)) :
    sep ∉ front := by
  induction s generalizing front with
  | nil => simp [cutAt?] at h
  | cons c r ih =>
    by_cases hc : c = sep
    · obtain ⟨rfl, -⟩ : [] = front ∧ r = rest := by simpa [cutAt?, hc] using h
      exact List.not_mem_nil
    · simp only [cutAt?, hc, if_false, Option.map_eq_some_iff, Prod.exists, Prod.mk.injEq] at h
      obtain ⟨a, b, hab, rfl, rfl⟩ := h
      exact List.not_mem_cons_of_ne_of_not_mem (Ne.symm hc) (ih hab)

theorem exists_join_append (sep : Text) (segments : List Text) (s : Text) :
    ∃ front, join sep (segments ++ [s]) = front ++ s := by
  cases segments with
  | nil => exact ⟨[], by simp [join]⟩
  | cons first rest =>
    induction rest generalizing first with
    | nil => exact ⟨first ++ sep, by simp [join]⟩
    | cons second rest ih =>
      obtain ⟨front, hf⟩ := ih second
      refine ⟨first ++ sep ++ front, ?_⟩
      rw [List.append_assoc, ← hf]
      simp [join]

theorem cutAt?_append (h : sep ∉ piece) (s : Text) :
    cutAt? sep (piece ++ sep :: s) = some (piece, s) := by
  induction piece with
  | nil => simp [cutAt?]
  | cons c r ih =>
    obtain ⟨hc, hr⟩ : sep ≠ c ∧ sep ∉ r := by simpa using h
    simp [cutAt?, Ne.symm hc, ih hr]

end NativeFreeze.Text
