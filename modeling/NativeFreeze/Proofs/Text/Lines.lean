import NativeFreeze.Proofs.Text.Split

/-!
# Lines of a text that goes on

What is added to a text goes on with its last line, and the lines before it stay. A text starts those
that go on from it also after both are trimmed at their ends.
-/

namespace NativeFreeze.Text

/-- A text that is added goes on with the last piece. -/
theorem split_append_eq (sep : Char) (s t : Text) :
    ∃ front last first rest, split sep s = front ++ [last] ∧ split sep t = first :: rest ∧
      split sep (s ++ t) = front ++ (last ++ first) :: rest := by
  obtain ⟨first, rest, ht⟩ := List.exists_cons_of_ne_nil (split_ne_nil sep t)
  have plain : sep ∉ first := not_mem_of_mem_split (ht ▸ List.mem_cons_self)
  obtain ⟨front, last, hs, hst⟩ := split_append_of_not_mem plain s
  refine ⟨front, last, first, rest, hs, ht, ?_⟩
  cases rest with
  | nil =>
    have whole : t = first := by
      rw [← join_split sep t, ht]
      simp [join]
    rw [whole, hst]
  | cons second rest =>
    have whole : t = first ++ sep :: join [sep] (second :: rest) := by
      rw [← join_split sep t, ht]
      simp [join]
    have later : second :: rest = split sep (join [sep] (second :: rest)) := by
      rw [whole, split_append, split_eq_singleton plain] at ht
      exact (List.cons.inj ht).2.symm
    rw [whole, ← List.append_assoc, split_append, hst, ← later]
    simp

/-- The lines of a text are its pieces, without a last piece that is empty. -/
theorem lines_of_split {s last : Text} {front : List Text} (h : split '\n' s = front ++ [last]) :
    lines s = front ++ if last = [] then [] else [last] := by
  rw [lines, h, List.reverse_append, List.reverse_singleton, List.singleton_append]
  cases last with
  | nil => simp
  | cons c r => simp

/-- The lines of a text stay when it goes on, except that the last one may go on with it. -/
theorem lines_append (s t : Text) : lines s <+: lines (s ++ t) ∨
    ∃ front last more rest, lines s = front ++ [last] ∧
      lines (s ++ t) = front ++ (last ++ more) :: rest := by
  obtain ⟨front, last, first, rest, hs, -, hst⟩ := split_append_eq '\n' s t
  obtain ⟨body, final, hb⟩ : ∃ body final, (last ++ first) :: rest = body ++ [final] :=
    ⟨_, _, (List.dropLast_concat_getLast (List.cons_ne_nil (last ++ first) rest)).symm⟩
  have long : lines (s ++ t) = front ++ (body ++ if final = [] then [] else [final]) := by
    rw [lines_of_split (by rw [hst, hb, List.append_assoc]), List.append_assoc]
  rw [lines_of_split hs, long]
  by_cases hl : last = []
  · left
    rw [if_pos hl, List.append_nil]
    exact List.prefix_append front _
  · right
    rw [if_neg hl]
    cases body with
    | nil =>
      obtain ⟨rfl, -⟩ := List.cons.inj hb
      refine ⟨front, last, first, [], rfl, ?_⟩
      rw [if_neg (List.append_ne_nil_of_left_ne_nil hl first), List.nil_append]
    | cons line body =>
      obtain ⟨rfl, -⟩ := List.cons.inj hb
      exact ⟨front, last, first, _, rfl, rfl⟩

theorem trimEnd_isPrefix_self (p : Char → Bool) (s : Text) : trimEnd p s <+: s := by
  rw [trimEnd, ← List.reverse_suffix, List.reverse_reverse]
  exact List.dropWhile_suffix p

/-- A trimmed text starts every trimmed text that goes on with it. -/
theorem trimEnd_isPrefix_append (p : Char → Bool) (s t : Text) :
    trimEnd p s <+: trimEnd p (s ++ t) := by
  rw [trimEnd, trimEnd, List.reverse_append, List.dropWhile_append]
  split
  · exact List.prefix_rfl
  · rw [List.reverse_append, List.reverse_reverse]
    exact (trimEnd_isPrefix_self p s).trans (List.prefix_append s _)

theorem after?_eq_some_iff {head s rest : Text} : after? head s = some rest ↔ s = head ++ rest := by
  induction head generalizing s with
  | nil => simp [after?, eq_comm]
  | cons c head ih =>
    cases s with
    | nil => simp [after?]
    | cons d s =>
      by_cases same : c = d
      · subst same
        simp [after?, ih]
      · simp [after?, same, Ne.symm same]

theorem after?_append {head s rest : Text} (h : after? head s = some rest) (t : Text) :
    after? head (s ++ t) = some (rest ++ t) := by
  rw [after?_eq_some_iff] at h ⊢
  rw [h, List.append_assoc]

end NativeFreeze.Text
