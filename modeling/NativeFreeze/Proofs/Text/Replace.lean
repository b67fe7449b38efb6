import NativeFreeze.Text.Basic

/-!
# Replaced texts

What is replaced has to be there: a text that does not hold a word is left alone, and one that starts
with the word is replaced there and behind it. Several words can be replaced in one pass, which never
looks at what it has put in; replacing a single word is such a pass. A bar keeps what is before it from
what is behind, so both are replaced on their own.
-/

namespace NativeFreeze.Text

variable {old new word s t : Text} {c : Char} {words : List (Text × Text)}

/-! ## Holding a word -/

theorem holds_cons (old : Text) (c : Char) (r : Text) :
    holds old (c :: r) = (old.isPrefixOf (c :: r) || holds old r) := by
  unfold holds
  rw [cutBefore?]
  by_cases h : old.isPrefixOf (c :: r)
  · simp [h]
  · simp [h]

theorem holds_nil (full : old ≠ []) : holds old [] = false := by
  simp [holds, cutBefore?, full]

theorem holds_of_isInfix (h : old <:+: s) : holds old s = true := by
  obtain ⟨front, rest, rfl⟩ := h
  induction front with
  | nil =>
    cases old with
    | nil => cases rest <;> rfl
    | cons c old => simp [holds_cons]
  | cons c front ih => simp_all [holds_cons]

theorem isInfix_of_holds (h : holds old s = true) : old <:+: s := by
  induction s with
  | nil =>
    by_cases full : old = []
    · simp [full]
    · simp [holds_nil full] at h
  | cons c r ih =>
    rw [holds_cons, Bool.or_eq_true, List.isPrefixOf_iff_prefix] at h
    rcases h with start | inside
    · exact start.isInfix
    · exact (ih inside).trans (List.suffix_cons c r).isInfix

theorem holds_iff_isInfix : holds old s = true ↔ old <:+: s :=
  ⟨isInfix_of_holds, holds_of_isInfix⟩

/-- A text without some character of a word does not hold the word. -/
theorem holds_eq_false (hc : c ∈ old) (hs : c ∉ s) : holds old s = false := by
  rw [Bool.eq_false_iff, ne_eq, holds_iff_isInfix]
  intro inside
  exact hs (inside.subset hc)

/-! ## Bars -/

/-- A text over whose borders no occurrence of the word reaches: it has a character that the word does
not have, and no character that the word starts or ends with. -/
structure Bars (word t : Text) : Prop where
  free : ∃ c ∈ t, c ∉ word
  starts : ∀ c ∈ t, word.head? ≠ some c
  ends : ∀ c ∈ t, word.getLast? ≠ some c

theorem bars_singleton (h : c ∉ word) : Bars word [c] := by
  constructor
  · exact ⟨c, List.mem_cons_self, h⟩
  · intro d hd start
    obtain rfl := List.mem_singleton.mp hd
    exact h (List.mem_of_head? start)
  · intro d hd last
    obtain rfl := List.mem_singleton.mp hd
    exact h (List.mem_of_getLast? last)

/-- An occurrence that starts in front of a bar ends there. -/
theorem isPrefixOf_append_bar (bar : Bars word t) (s rest : Text) :
    word.isPrefixOf (s ++ t ++ rest) = word.isPrefixOf s := by
  rw [Bool.eq_iff_iff, List.isPrefixOf_iff_prefix, List.isPrefixOf_iff_prefix, List.append_assoc]
  constructor
  · intro start
    rcases List.prefix_or_prefix_of_prefix start (List.prefix_append s _) with inside | ⟨more, rfl⟩
    · exact inside
    rcases List.eq_nil_or_concat more with rfl | ⟨more, last, rfl⟩
    · simp
    have start := (List.prefix_append_right_inj s).mp start
    rcases List.prefix_or_prefix_of_prefix start (List.prefix_append t rest) with within | beyond
    · have mem : last ∈ t := within.subset (by simp)
      exact absurd (by simp [← List.append_assoc]) (bar.ends last mem)
    · obtain ⟨c, mem, free⟩ := bar.free
      exact absurd (List.mem_append_right s (beyond.subset mem)) free
  · intro start
    exact start.trans (List.prefix_append s _)

theorem isPrefixOf_eq_false_of_head (full : word ≠ []) (other : word.head? ≠ some c) (rest : Text) :
    word.isPrefixOf (c :: rest) = false := by
  cases word with
  | nil => exact absurd rfl full
  | cons d word =>
    have ne : d ≠ c := by simpa using other
    simp [List.isPrefixOf, ne]

theorem holds_append_of_starts (full : word ≠ []) (starts : ∀ c ∈ t, word.head? ≠ some c)
    (rest : Text) : holds word (t ++ rest) = holds word rest := by
  induction t with
  | nil => rfl
  | cons c t ih =>
    rw [List.forall_mem_cons] at starts
    rw [List.cons_append, holds_cons, isPrefixOf_eq_false_of_head full starts.1, ih starts.2,
      Bool.false_or]

/-- A word stands on one side of a bar. -/
theorem holds_append_bar (bar : Bars word t) (full : word ≠ []) (s rest : Text) :
    holds word (s ++ t ++ rest) = (holds word s || holds word rest) := by
  induction s with
  | nil => rw [List.nil_append, holds_append_of_starts full bar.starts, holds_nil full, Bool.false_or]
  | cons c s ih =>
    have start := isPrefixOf_append_bar bar (c :: s) rest
    rw [List.cons_append, List.cons_append] at start ⊢
    rw [holds_cons, ih, start, holds_cons, Bool.or_assoc]

/-! ## Replacing several words in one pass -/

/-- Replaces words by what stands beside them, in one pass from left to right; of the words that start at
a place the first one listed counts. The second argument counts the characters of an occurrence that
are still to be dropped. -/
def substituteFrom (words : List (Text × Text)) : Nat → Text → Text
  | _, [] => []
  | k + 1, _ :: r => substituteFrom words k r
  | 0, c :: r =>
    match words.find? fun word => word.1.isPrefixOf (c :: r) with
    | some (old, new) => new ++ substituteFrom words (old.length - 1) r
    | none => c :: substituteFrom words 0 r

/-- `s` with nonempty words replaced, all at the same time. -/
def substitute (words : List (Text × Text)) (s : Text) : Text :=
  substituteFrom words 0 s

theorem substituteFrom_length (words : List (Text × Text)) (s t : Text) :
    substituteFrom words s.length (s ++ t) = substitute words t := by
  induction s with
  | nil => rfl
  | cons c s ih => exact ih

/-- A text at whose start no word stands. -/
theorem substitute_cons (miss : ∀ word ∈ words, word.1.isPrefixOf (c :: s) = false) :
    substitute words (c :: s) = c :: substitute words s := by
  have none : words.find? (fun word => word.1.isPrefixOf (c :: s)) = none := by
    rw [List.find?_eq_none]
    intro word mem
    simp [miss word mem]
  rw [substitute, substituteFrom, none]
  rfl

/-- A text that starts with a word. -/
theorem substitute_append (full : old ≠ [])
    (first : words.find? (fun word => word.1.isPrefixOf (old ++ t)) = some (old, new)) :
    substitute words (old ++ t) = new ++ substitute words t := by
  obtain ⟨c, r, rfl⟩ := List.exists_cons_of_ne_nil full
  rw [List.cons_append] at first ⊢
  rw [substitute, substituteFrom, first]
  dsimp only
  rw [List.length_cons, Nat.add_sub_cancel, substituteFrom_length]

theorem substitute_eq_self (h : ∀ word ∈ words, holds word.1 s = false) :
    substitute words s = s := by
  induction s with
  | nil => rfl
  | cons c r ih =>
    simp only [holds_cons, Bool.or_eq_false_iff] at h
    rw [substitute_cons fun word mem => (h word mem).1, ih fun word mem => (h word mem).2]

theorem find?_append_bar (bars : ∀ word ∈ words, Bars word.1 t) (s rest : Text) :
    words.find? (fun word => word.1.isPrefixOf (s ++ t ++ rest)) =
      words.find? fun word => word.1.isPrefixOf s := by
  induction words with
  | nil => rfl
  | cons word words ih =>
    rw [List.forall_mem_cons] at bars
    rw [List.find?_cons, List.find?_cons, isPrefixOf_append_bar bars.1, ih bars.2]

theorem substitute_append_of_starts (full : ∀ word ∈ words, word.1 ≠ [])
    (starts : ∀ c ∈ t, ∀ word ∈ words, word.1.head? ≠ some c) (rest : Text) :
    substitute words (t ++ rest) = t ++ substitute words rest := by
  induction t with
  | nil => rfl
  | cons c t ih =>
    rw [List.forall_mem_cons] at starts
    rw [List.cons_append, substitute_cons, ih starts.2, List.cons_append]
    intro word mem
    exact isPrefixOf_eq_false_of_head (full word mem) (starts.1 word mem) _

theorem substituteFrom_append_bar (full : ∀ word ∈ words, word.1 ≠ [])
    (bars : ∀ word ∈ words, Bars word.1 t) (rest : Text) {k : Nat} (hk : k ≤ s.length) :
    substituteFrom words k (s ++ t ++ rest) =
      substituteFrom words k s ++ t ++ substitute words rest := by
  induction s generalizing k with
  | nil =>
    obtain rfl : k = 0 := Nat.le_zero.mp hk
    apply substitute_append_of_starts full
    intro c hc word mem
    exact (bars word mem).starts c hc
  | cons c s ih =>
    cases k with
    | succ k => exact ih (Nat.le_of_succ_le_succ hk)
    | zero =>
      have place := find?_append_bar bars (c :: s) rest
      rw [List.cons_append, List.cons_append] at place ⊢
      rw [substituteFrom, substituteFrom, place]
      cases found : words.find? fun word => word.1.isPrefixOf (c :: s) with
      | none => exact congrArg (c :: ·) (ih (Nat.zero_le _))
      | some pair =>
        have hit := List.find?_some found
        have short := (List.isPrefixOf_iff_prefix.mp hit).length_le
        rw [List.length_cons] at short
        dsimp only
        rw [ih (by omega)]
        simp only [List.append_assoc]

/-- What is before a bar and what is behind it are changed on their own. -/
theorem substitute_append_bar (full : ∀ word ∈ words, word.1 ≠ [])
    (bars : ∀ word ∈ words, Bars word.1 t) (s rest : Text) :
    substitute words (s ++ t ++ rest) = substitute words s ++ t ++ substitute words rest :=
  substituteFrom_append_bar full bars rest (Nat.zero_le _)

/-! ## Replacing one word -/

/-- Replacing one word is a pass with that word. -/
theorem replace_eq_substitute (full : old ≠ []) (new s : Text) :
    replace old new s = substitute [(old, new)] s := by
  have some : old.isEmpty = false := by simpa using full
  have from_eq (k : Nat) : replaceFrom old new k s = substituteFrom [(old, new)] k s := by
    induction s generalizing k with
    | nil => cases k <;> rfl
    | cons c r ih =>
      cases k with
      | succ k => exact ih k
      | zero =>
        rw [replaceFrom, substituteFrom, List.find?_cons]
        cases old.isPrefixOf (c :: r) with
        | true => exact congrArg (new ++ ·) (ih _)
        | false => exact congrArg (c :: ·) (ih _)
  rw [replace, some, if_neg Bool.false_ne_true, from_eq]
  rfl

/-- What does not hold the replaced text stays. -/
theorem replace_eq_self (h : holds old s = false) : replace old new s = s := by
  have full : old ≠ [] := by
    rintro rfl
    rw [holds_of_isInfix List.nil_infix] at h
    exact nomatch h
  rw [replace_eq_substitute full]
  apply substitute_eq_self
  simpa using h

/-- A text that starts with the word. -/
theorem replace_append (full : old ≠ []) (new t : Text) :
    replace old new (old ++ t) = new ++ replace old new t := by
  rw [replace_eq_substitute full, replace_eq_substitute full]
  apply substitute_append full
  simp

/-- A text that does not start with the word. -/
theorem replace_cons (full : old ≠ []) (miss : old.isPrefixOf (c :: s) = false) :
    replace old new (c :: s) = c :: replace old new s := by
  rw [replace_eq_substitute full, replace_eq_substitute full]
  apply substitute_cons
  simpa using miss

theorem replace_self (full : old ≠ []) : replace old new old = new := by
  have whole := replace_append full new []
  have nothing : replace old new [] = [] := by simp [replace, replaceFrom, full]
  rwa [List.append_nil, nothing, List.append_nil] at whole

/-- Replacing a character changes each one on its own. -/
theorem replace_char (c : Char) (new s : Text) :
    replace [c] new s = s.flatMap fun x => if x = c then new else [x] := by
  induction s with
  | nil => rfl
  | cons x s ih =>
    rw [List.flatMap_cons, ← ih]
    by_cases same : x = c
    · rw [if_pos same, same]
      exact replace_append (List.cons_ne_nil c []) new s
    · rw [if_neg same]
      have other : [c].head? ≠ some x := by simpa using Ne.symm same
      apply replace_cons (List.cons_ne_nil c [])
      exact isPrefixOf_eq_false_of_head (List.cons_ne_nil c []) other s

theorem replace_singleton (c d : Char) (s : Text) :
    replace [c] [d] s = s.map fun x => if x = c then d else x := by
  rw [replace_char, List.map_eq_flatMap]
  congr
  funext x
  split <;> rfl

theorem replace_append_bar (bar : Bars old t) (full : old ≠ []) (new s rest : Text) :
    replace old new (s ++ t ++ rest) = replace old new s ++ t ++ replace old new rest := by
  simp only [replace_eq_substitute full]
  apply substitute_append_bar
  · simpa using full
  · simpa using bar

/-! ## A single character as a bar -/

theorem isPrefixOf_append_cons (hc : c ∉ old) (s t : Text) :
    old.isPrefixOf (s ++ c :: t) = old.isPrefixOf s := by
  simpa using isPrefixOf_append_bar (bars_singleton hc) s t

theorem isPrefixOf_cons_eq_false (hc : c ∉ old) (full : old ≠ []) (t : Text) :
    old.isPrefixOf (c :: t) = false :=
  isPrefixOf_eq_false_of_head full ((bars_singleton hc).starts c List.mem_cons_self) t

/-- A piece stands on one side of a character that it does not have. -/
theorem holds_append_cons (hc : c ∉ old) (full : old ≠ []) (s t : Text) :
    holds old (s ++ c :: t) = (holds old s || holds old t) := by
  simpa using holds_append_bar (bars_singleton hc) full s t

/-- Lines that are put in between lines bring in only what they hold themselves. -/
theorem holds_insert {front lines : Text} (hc : c ∉ word) (full : word ≠ [])
    (hf : front.getLast? = some c) (hl : lines.getLast? = some c) (rest : Text) :
    holds word (front ++ lines ++ rest) = (holds word (front ++ rest) || holds word lines) := by
  obtain ⟨front, rfl⟩ := List.getLast?_eq_some_iff.mp hf
  obtain ⟨lines, rfl⟩ := List.getLast?_eq_some_iff.mp hl
  have none : holds word [] = false := holds_nil full
  simp only [List.append_assoc, List.cons_append, List.nil_append, holds_append_cons hc full, none,
    Bool.or_false]
  rw [Bool.or_assoc, Bool.or_comm (holds word lines)]

end NativeFreeze.Text
