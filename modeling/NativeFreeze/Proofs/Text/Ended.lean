import NativeFreeze.Proofs.Text.Replace
import NativeFreeze.Proofs.Text.Split

/-!
# Words at the end of a piece

A character cuts a text into the pieces that it ends, and a rest. A word that has the character at
its end and nowhere else stands in a text exactly where a piece ends with what the word has before
it. So such a word is replaced in each piece on its own, and what two replacements did can be undone
piece by piece.
-/

namespace NativeFreeze.Text

variable {e : Char} {old new p s t : Text} {f g : Text → Text}

/-- The pieces of `s` that `e` ends. -/
def ended (e : Char) (s : Text) : List Text :=
  (split e s).dropLast

/-- `s` with each piece that `e` ends changed by `f`; what follows the last `e` is kept. -/
def mapEnded (e : Char) (f : Text → Text) (s : Text) : Text :=
  (ended e s).flatMap (fun p => f p ++ [e]) ++ (split e s).getLast?.getD []

/-- `p` with `new` in the place of an `old` at its end. -/
def exchange (old new p : Text) : Text :=
  if old <:+ p then p.take (p.length - old.length) ++ new else p

theorem ended_eq_nil (h : e ∉ s) : ended e s = [] := by
  simp [ended, split_eq_singleton h]

theorem ended_append (h : e ∉ p) (t : Text) : ended e (p ++ e :: t) = p :: ended e t := by
  simp [ended, split_append, split_eq_singleton h, List.dropLast_cons_of_ne_nil]

theorem mapEnded_of_not_mem (h : e ∉ s) : mapEnded e f s = s := by
  simp [mapEnded, ended_eq_nil h, split_eq_singleton h]

theorem mapEnded_append (h : e ∉ p) (t : Text) :
    mapEnded e f (p ++ e :: t) = f p ++ e :: mapEnded e f t := by
  have last : (split e (p ++ e :: t)).getLast? = (split e t).getLast? := by
    obtain ⟨last, more⟩ := Option.ne_none_iff_exists'.mp
      (mt List.getLast?_eq_none_iff.mp (split_ne_nil e t))
    rw [split_append, List.getLast?_append, more, Option.some_or]
  simp [mapEnded, ended_append h, last]

/-- A text is its first piece, the character, and a shorter text. -/
theorem ended_induction {motive : Text → Prop} (rest : ∀ s, e ∉ s → motive s)
    (piece : ∀ p t, e ∉ p → motive t → motive (p ++ e :: t)) (s : Text) : motive s := by
  induction h : s.length using Nat.strongRecOn generalizing s with
  | _ n ih =>
    by_cases he : e ∈ s
    · obtain ⟨p, t, rfl, hp⟩ := List.eq_append_cons_of_mem he
      apply piece p t hp
      apply ih t.length _ t rfl
      simp only [List.length_append, List.length_cons] at h
      omega
    · exact rest s he

/-- The pieces of a text with changed pieces are those, if the change brings no `e` in. -/
theorem ended_mapEnded (h : ∀ p, e ∉ p → e ∉ f p) (s : Text) :
    ended e (mapEnded e f s) = (ended e s).map f := by
  induction s using ended_induction (e := e) with
  | rest s hs => rw [mapEnded_of_not_mem hs, ended_eq_nil hs, List.map_nil]
  | piece p t hp ih =>
    rw [mapEnded_append hp, ended_append (h p hp), ih, ended_append hp, List.map_cons]

/-- Changes one after the other, if the first brings no `e` in. -/
theorem mapEnded_mapEnded (h : ∀ p, e ∉ p → e ∉ f p) (s : Text) :
    mapEnded e g (mapEnded e f s) = mapEnded e (g ∘ f) s := by
  induction s using ended_induction (e := e) with
  | rest s hs => rw [mapEnded_of_not_mem hs, mapEnded_of_not_mem hs, mapEnded_of_not_mem hs]
  | piece p t hp ih =>
    rw [mapEnded_append hp, mapEnded_append (h p hp), mapEnded_append hp, ih]
    rfl

theorem mapEnded_eq_self (h : ∀ p ∈ ended e s, f p = p) : mapEnded e f s = s := by
  induction s using ended_induction (e := e) with
  | rest s hs => exact mapEnded_of_not_mem hs
  | piece p t hp ih =>
    rw [ended_append hp, List.forall_mem_cons] at h
    rw [mapEnded_append hp, h.1, ih h.2]

/-- In front of the first `e` a word stands if it is all that comes before. -/
theorem isPrefixOf_ended (hw : e ∉ old) (hp : e ∉ p) (t : Text) :
    (old ++ [e]).isPrefixOf (p ++ e :: t) = decide (old = p) := by
  rw [Bool.eq_iff_iff, List.isPrefixOf_iff_prefix, decide_eq_true_iff]
  induction old generalizing p with
  | nil => cases p <;> simp_all
  | cons c old ih =>
    cases p with
    | nil => simp_all [eq_comm]
    | cons d p => simp_all

/-- A word that `e` ends stands in a text exactly where a piece ends with what comes before `e`. -/
theorem holds_piece (hw : e ∉ old) (hp : e ∉ p) (t : Text) :
    holds (old ++ [e]) (p ++ e :: t) = (decide (old <:+ p) || holds (old ++ [e]) t) := by
  induction p with
  | nil =>
    have start := isPrefixOf_ended hw List.not_mem_nil t
    rw [List.nil_append] at start ⊢
    rw [holds_cons, start]
    simp
  | cons c p ih =>
    have start := isPrefixOf_ended hw hp t
    rw [List.cons_append] at start ⊢
    rw [holds_cons, start, ih fun h => hp (List.mem_cons_of_mem c h)]
    simp [List.suffix_cons_iff, Bool.or_assoc]

theorem holds_iff_ended (hw : e ∉ old) :
    holds (old ++ [e]) s = true ↔ ∃ p ∈ ended e s, old <:+ p := by
  induction s using ended_induction (e := e) with
  | rest s hs => simp [ended_eq_nil hs, holds_eq_false (by simp : e ∈ old ++ [e]) hs]
  | piece p t hp ih => simp [holds_piece hw hp, ended_append hp, ih]

theorem exchange_append (old new p : Text) : exchange old new (p ++ old) = p ++ new := by
  simp [exchange]

theorem exchange_self (old new : Text) : exchange old new old = new :=
  exchange_append old new []

theorem exchange_nil (h : old ≠ []) : exchange old new [] = [] := by
  simp [exchange, h]

theorem exchange_cons {c : Char} (h : old ≠ c :: p) :
    exchange old new (c :: p) = c :: exchange old new p := by
  by_cases hp : old <:+ p
  · have short := hp.length_le
    have longer : p.length + 1 - old.length = p.length - old.length + 1 := by omega
    simp [exchange, hp, List.suffix_cons_iff, longer]
  · simp [exchange, hp, List.suffix_cons_iff, h]

/-- A word that `e` ends is replaced where a piece ends with what comes before `e`. -/
theorem replace_piece (hw : e ∉ old) (hp : e ∉ p) (new t : Text) :
    replace (old ++ [e]) (new ++ [e]) (p ++ e :: t) =
      exchange old new p ++ e :: replace (old ++ [e]) (new ++ [e]) t := by
  have full : old ++ [e] ≠ [] := by simp
  have whole : replace (old ++ [e]) (new ++ [e]) (old ++ e :: t) =
      new ++ e :: replace (old ++ [e]) (new ++ [e]) t := by
    simpa only [List.append_assoc, List.singleton_append] using replace_append full (new ++ [e]) t
  induction p with
  | nil =>
    by_cases same : old = []
    · subst same
      rw [exchange_self]
      exact whole
    · rw [exchange_nil same]
      exact replace_cons full (by simpa [same] using isPrefixOf_ended hw hp t)
  | cons c p ih =>
    by_cases same : old = c :: p
    · rw [← same, exchange_self]
      exact whole
    · have miss := isPrefixOf_ended hw hp t
      rw [exchange_cons same, List.cons_append, List.cons_append]
      rw [replace_cons full (by simpa [same] using miss)]
      rw [ih fun h => hp (List.mem_cons_of_mem c h)]

theorem replace_eq_mapEnded (hw : e ∉ old) (new s : Text) :
    replace (old ++ [e]) (new ++ [e]) s = mapEnded e (exchange old new) s := by
  induction s using ended_induction (e := e) with
  | rest s hs =>
    rw [mapEnded_of_not_mem hs]
    exact replace_eq_self (holds_eq_false (by simp) hs)
  | piece p t hp ih => rw [mapEnded_append hp, ← ih, replace_piece hw hp]

theorem exchange_eq_self (h : ¬ old <:+ p) : exchange old new p = p := by
  simp [exchange, h]

theorem not_mem_exchange (hn : e ∉ new) (hp : e ∉ p) : e ∉ exchange old new p := by
  unfold exchange
  split
  · rw [List.mem_append, not_or]
    exact ⟨fun h => hp (List.mem_of_mem_take h), hn⟩
  · exact hp

/-! ## Undoing two replacements -/

/-- `word` has `e` at its end and nowhere else. -/
def Ends (e : Char) (word : Text) : Prop :=
  word.getLast? = some e ∧ e ∉ word.dropLast

instance (e : Char) (word : Text) : Decidable (Ends e word) :=
  inferInstanceAs (Decidable (_ ∧ _))

/-- No text that ends with `new` ends with `old`. -/
def Apart (old new : Text) : Prop :=
  ∀ front, ¬ old <:+ front ++ new

variable {a a' b b' : Text}

theorem Ends.exists_body (h : Ends e t) : ∃ body, t = body ++ [e] ∧ e ∉ body := by
  obtain ⟨body, rfl⟩ := List.getLast?_eq_some_iff.mp h.1
  exact ⟨body, rfl, by simpa using h.2⟩

theorem Ends.append (h : Ends e t) (hs : e ∉ s) : Ends e (s ++ t) := by
  obtain ⟨body, rfl, hb⟩ := h.exists_body
  constructor
  · simp [List.getLast?_append]
  · simp [← List.append_assoc, hs, hb]

theorem Apart.append (h : Apart old t) (s : Text) : Apart old (s ++ t) := by
  intro front
  rw [← List.append_assoc]
  exact h (front ++ s)

theorem apart_append_right : Apart (a ++ t) (b ++ t) ↔ Apart a b := by
  have same (front : Text) : a ++ t <:+ front ++ (b ++ t) ↔ a <:+ front ++ b := by
    constructor
    · intro ⟨more, h⟩
      have whole : more ++ a ++ t = front ++ b ++ t := by simpa using h
      exact ⟨more, List.append_cancel_right whole⟩
    · intro ⟨more, h⟩
      exact ⟨more, by rw [← List.append_assoc, h, List.append_assoc]⟩
  simp only [Apart, same]

/-- Words that end differently. -/
theorem apart_of_isSuffix (hs : s <:+ old) (ht : t <:+ new) (long : s.length = t.length)
    (other : s ≠ t) : Apart old new := by
  intro front h
  apply other
  have within : s <:+ t := by
    apply List.suffix_of_suffix_length_le (hs.trans h) _ (Nat.le_of_eq long)
    exact ht.trans (List.suffix_append front new)
  exact within.eq_of_length long

/-- Words that end differently up to the last `c` of each. -/
theorem Apart.append_append {c : Char} (h : Apart a b) (ha : a.getLast? = some c)
    (hb : b.getLast? = some c) (hs : c ∉ s) (ht : c ∉ t) : Apart (a ++ s) (b ++ t) := by
  obtain ⟨a, rfl⟩ := List.getLast?_eq_some_iff.mp ha
  obtain ⟨b, rfl⟩ := List.getLast?_eq_some_iff.mp hb
  rw [apart_append_right] at h
  intro front ⟨more, same⟩
  simp only [List.append_assoc, List.singleton_append] at same
  apply h front
  have pieces := congrArg (split c) same
  rw [← List.append_assoc, ← List.append_assoc, split_append, split_append,
    split_eq_singleton hs, split_eq_singleton ht] at pieces
  obtain rfl : s = t := by simpa using (List.append_inj' pieces rfl).2
  have whole : more ++ a ++ c :: s = front ++ b ++ c :: s := by simpa using same
  exact ⟨more, List.append_cancel_right whole⟩

theorem exchange_undo (ha : ¬ a' <:+ p) (hb : ¬ b' <:+ p) (apart : Apart b a')
    (apart' : Apart b' a') :
    exchange a' a (exchange b' b (exchange b b' (exchange a a' p))) = p := by
  by_cases first : a <:+ p
  · obtain ⟨q, rfl⟩ := first
    rw [exchange_append, exchange_eq_self (apart q), exchange_eq_self (apart' q), exchange_append]
  · rw [exchange_eq_self first]
    by_cases second : b <:+ p
    · obtain ⟨q, rfl⟩ := second
      rw [exchange_append, exchange_append, exchange_eq_self ha]
    · rw [exchange_eq_self second, exchange_eq_self hb, exchange_eq_self ha]

/-- Two replacements, `a` by `a'` and then `b` by `b'`, are undone in the other order in a text that
has neither of the new words. -/
theorem replace_undo (ha : Ends e a) (ha' : Ends e a') (hb : Ends e b) (hb' : Ends e b')
    (apart : Apart b a') (apart' : Apart b' a') (none : holds a' s = false)
    (none' : holds b' s = false) :
    replace a' a (replace b' b (replace b b' (replace a a' s))) = s := by
  obtain ⟨a, rfl, free⟩ := ha.exists_body
  obtain ⟨a', rfl, free'⟩ := ha'.exists_body
  obtain ⟨b, rfl, spare⟩ := hb.exists_body
  obtain ⟨b', rfl, spare'⟩ := hb'.exists_body
  rw [apart_append_right] at apart apart'
  rw [replace_eq_mapEnded free, replace_eq_mapEnded spare, replace_eq_mapEnded spare',
    replace_eq_mapEnded free']
  rw [mapEnded_mapEnded fun p => not_mem_exchange spare]
  rw [mapEnded_mapEnded fun p => not_mem_exchange spare']
  rw [mapEnded_mapEnded fun p => not_mem_exchange free']
  rw [Bool.eq_false_iff, ne_eq, holds_iff_ended free'] at none
  rw [Bool.eq_false_iff, ne_eq, holds_iff_ended spare'] at none'
  apply mapEnded_eq_self
  intro p hp
  apply exchange_undo _ _ apart apart'
  · exact fun h => none ⟨p, hp, h⟩
  · exact fun h => none' ⟨p, hp, h⟩

/-! ## What stands in a text after two replacements -/

/-- The pieces after two replacements. -/
theorem ended_replace_replace (ha : e ∉ a) (ha' : e ∉ a') (hb : e ∉ b)
    (hb' : e ∉ b') (s : Text) :
    ended e (replace (b ++ [e]) (b' ++ [e]) (replace (a ++ [e]) (a' ++ [e]) s)) =
      (ended e s).map fun p => exchange b b' (exchange a a' p) := by
  rw [replace_eq_mapEnded ha, replace_eq_mapEnded hb, ended_mapEnded fun p => not_mem_exchange hb',
    ended_mapEnded fun p => not_mem_exchange ha', List.map_map]
  rfl

/-- A replaced word is gone, if neither new word brings it in. -/
theorem holds_replaced_eq_false (ha : Ends e a) (ha' : Ends e a') (hb : Ends e b) (hb' : Ends e b')
    (kept : Apart b a') (apart : Apart a a') (apart' : Apart a b') (s : Text) :
    holds a (replace b b' (replace a a' s)) = false := by
  obtain ⟨a, rfl, free⟩ := ha.exists_body
  obtain ⟨a', rfl, free'⟩ := ha'.exists_body
  obtain ⟨b, rfl, spare⟩ := hb.exists_body
  obtain ⟨b', rfl, spare'⟩ := hb'.exists_body
  rw [apart_append_right] at kept apart apart'
  rw [Bool.eq_false_iff, ne_eq, holds_iff_ended free, ended_replace_replace free free' spare spare']
  intro ⟨q, mem, stands⟩
  obtain ⟨p, -, rfl⟩ := List.mem_map.mp mem
  by_cases first : a <:+ p
  · obtain ⟨front, rfl⟩ := first
    rw [exchange_append, exchange_eq_self (kept front)] at stands
    exact apart front stands
  · rw [exchange_eq_self first] at stands
    by_cases second : b <:+ p
    · obtain ⟨front, rfl⟩ := second
      rw [exchange_append] at stands
      exact apart' front stands
    · rw [exchange_eq_self second] at stands
      exact first stands

/-- The new word stands where the replaced one stood. -/
theorem holds_replaced (ha : Ends e a) (ha' : Ends e a') (hb : Ends e b) (hb' : Ends e b')
    (kept : Apart b a') (there : holds a s = true) :
    holds a' (replace b b' (replace a a' s)) = true := by
  obtain ⟨a, rfl, free⟩ := ha.exists_body
  obtain ⟨a', rfl, free'⟩ := ha'.exists_body
  obtain ⟨b, rfl, spare⟩ := hb.exists_body
  obtain ⟨b', rfl, spare'⟩ := hb'.exists_body
  rw [apart_append_right] at kept
  rw [holds_iff_ended free] at there
  obtain ⟨p, mem, front, rfl⟩ := there
  rw [holds_iff_ended free', ended_replace_replace free free' spare spare']
  refine ⟨_, List.mem_map_of_mem mem, ?_⟩
  rw [exchange_append, exchange_eq_self (kept front)]
  exact List.suffix_append front a'

end NativeFreeze.Text
