import NativeFreeze.Proofs.Generated.CString

/-!
# What a literal leaves of a text

A text that is put into a literal without escapes is read as itself if it is plain. A reader that meets
anything else loses something: an escape and its backslash come to one character, and a quotation mark
ends the value. So only a plain text is read as it is.
-/

namespace NativeFreeze.CString

variable {s t v : Text} {c d : Char}

/-- A text that a literal holds as it is: no escape, no end and no line break. -/
structure Plain (s : Text) : Prop where
  backslash : '\\' ∉ s
  quote : '"' ∉ s
  newline : '\n' ∉ s
  carriage : '\r' ∉ s

theorem plain_nil : Plain [] :=
  ⟨List.not_mem_nil, List.not_mem_nil, List.not_mem_nil, List.not_mem_nil⟩

theorem plain_cons : Plain (c :: s) ↔ Plain [c] ∧ Plain s := by
  constructor
  · intro h
    have sub : ∀ {l : Text}, l ⊆ c :: s → Plain l := fun h' =>
      ⟨fun m => h.1 (h' m), fun m => h.2 (h' m), fun m => h.3 (h' m), fun m => h.4 (h' m)⟩
    exact ⟨sub (by simp), sub (List.subset_cons_self c s)⟩
  · rintro ⟨hc, hs⟩
    have both : ∀ {x : Char}, x ∉ [c] → x ∉ s → x ∉ c :: s := fun hx hy => by simp_all
    exact ⟨both hc.1 hs.1, both hc.2 hs.2, both hc.3 hs.3, both hc.4 hs.4⟩

/-- A plain text is read as it is. -/
theorem Plain.value?_append (h : Plain s) (t : Text) : value? (s ++ '"' :: t) = some s := by
  have read := value?_escape h.newline h.carriage t
  rwa [escape_eq_self h.backslash h.quote] at read

/-- A reader is in a numeral. -/
def Reading.Counts : Reading → Prop
  | .octal _ _ | .hex _ _ | .universal _ _ => True
  | .plain | .escape | .closed => False

/-- What a reader can make of one character. -/
inductive Turn (c : Char) : Reading → Text → Reading → Prop
  | keep (plain : Plain [c]) : Turn c .plain [c] .plain
  | start (backslash : c = '\\') : Turn c .plain [] .escape
  | close (quote : c = '"') : Turn c .plain [] .closed
  | letter (known : readEscape c ≠ none) (d : Char) : Turn c .escape [d] .plain
  | numeral {next : Reading} (known : readEscape c ≠ none) (counts : next.Counts) :
      Turn c .escape [] next
  | digit {reading next : Reading} (counts : reading.Counts) (more : next.Counts)
      (line : c ≠ '\n') : Turn c reading [] next
  | last {reading : Reading} (counts : reading.Counts) (line : c ≠ '\n') (d : Char) :
      Turn c reading [d] .plain
  | behind {reading next : Reading} {read : Text} (counts : reading.Counts) (d : Char)
      (turn : Turn c .plain read next) : Turn c reading (d :: read) next

variable {reading next : Reading} {read : Text}

theorem turn_of_readPlain (h : readPlain c = some (read, next)) : Turn c .plain read next := by
  unfold readPlain at h
  split at h
  · next quote =>
    obtain ⟨rfl, rfl⟩ := Prod.mk.inj (Option.some.inj h)
    exact .close quote
  split at h
  · next backslash =>
    obtain ⟨rfl, rfl⟩ := Prod.mk.inj (Option.some.inj h)
    exact .start backslash
  split at h
  · exact nomatch h
  · next quote backslash line =>
    obtain ⟨rfl, rfl⟩ := Prod.mk.inj (Option.some.inj h)
    simp only [Bool.or_eq_true, decide_eq_true_eq, not_or] at line
    exact .keep ⟨by simpa using Ne.symm backslash, by simpa using Ne.symm quote,
      by simpa using Ne.symm line.1, by simpa using Ne.symm line.2⟩

theorem turn_of_readBehind {value : Nat} (counts : reading.Counts)
    (h : readBehind value c = some (read, next)) : Turn c reading read next := by
  unfold readBehind at h
  split at h
  · next d read' next' char plain =>
    obtain ⟨rfl, rfl⟩ := Prod.mk.inj (Option.some.inj h)
    exact .behind counts d (turn_of_readPlain plain)
  · exact nomatch h

theorem turn_of_readEscape (h : readEscape c = some (read, next)) : Turn c .escape read next := by
  have known : readEscape c ≠ none := h ▸ Option.some_ne_none _
  have opens {next' : Reading} (h : some (([] : Text), next') = some (read, next))
      (counts : next'.Counts) : Turn c .escape read next := by
    obtain ⟨rfl, rfl⟩ := Prod.mk.inj (Option.some.inj h)
    exact .numeral known counts
  unfold readEscape at h
  split at h
  · exact opens h trivial
  split at h
  · exact opens h trivial
  split at h
  · exact opens h trivial
  split at h
  · exact opens h trivial
  · obtain ⟨d, -, letter⟩ := Option.map_eq_some_iff.mp h
    obtain ⟨rfl, rfl⟩ := Prod.mk.inj letter
    exact .letter known d
  · exact nomatch h

theorem ne_newline_of_digit? {base n : Nat} (digit : digit? base c = some n) : c ≠ '\n' := by
  have none : "0123456789abcdef".toList.idxOf? '\n'.toLower = none := by decide
  rintro rfl
  rw [digit?, none] at digit
  cases digit

theorem turn_of_digit {base n : Nat} {next' : Reading} (digit : digit? base c = some n)
    (h : some (([] : Text), next') = some (read, next)) (counts : reading.Counts)
    (more : next'.Counts) : Turn c reading read next := by
  obtain ⟨rfl, rfl⟩ := Prod.mk.inj (Option.some.inj h)
  exact .digit counts more (ne_newline_of_digit? digit)

theorem turn_of_step (h : step reading c = some (read, next)) : Turn c reading read next := by
  cases reading with
  | plain => exact turn_of_readPlain h
  | escape => exact turn_of_readEscape h
  | octal digits value =>
    cases digit : digit? 8 c with
    | none =>
      rw [step, digit] at h
      exact turn_of_readBehind trivial h
    | some d =>
      by_cases more : digits < 3
      · simp only [step, digit, if_pos more] at h
        exact turn_of_digit digit h trivial trivial
      · simp only [step, digit, if_neg more] at h
        exact turn_of_readBehind trivial h
  | hex digits value =>
    cases digit : digit? 16 c with
    | none =>
      by_cases first : digits = 0
      · simp only [step, digit, if_pos first] at h
        cases h
      · simp only [step, digit, if_neg first] at h
        exact turn_of_readBehind trivial h
    | some d =>
      rw [step, digit] at h
      exact turn_of_digit digit h trivial trivial
  | universal left value =>
    cases digit : digit? 16 c with
    | none =>
      rw [step, digit] at h
      cases h
    | some d =>
      by_cases last : left = 1
      · simp only [step, digit, if_pos last] at h
        obtain ⟨char, -, read⟩ := Option.map_eq_some_iff.mp h
        obtain ⟨rfl, rfl⟩ := Prod.mk.inj read
        have counts : (Reading.universal left value).Counts := trivial
        exact .last counts (ne_newline_of_digit? digit) char
      · simp only [step, digit, if_neg last] at h
        exact turn_of_digit digit h trivial trivial
  | closed => cases h

theorem readFrom_cons_eq_some (h : readFrom reading (c :: s) = some v) :
    ∃ read next, step reading c = some (read, next) ∧
      (next = .closed ∧ v = read ∨
        next ≠ .closed ∧ ∃ rest, readFrom next s = some rest ∧ v = read ++ rest) := by
  cases turn : step reading c with
  | none => simp only [readFrom, turn, reduceCtorEq] at h
  | some found =>
    obtain ⟨read, next⟩ := found
    rw [readFrom, turn] at h
    refine ⟨read, next, rfl, ?_⟩
    cases next with
    | closed => exact .inl ⟨rfl, (Option.some.inj h).symm⟩
    | plain | escape | octal | hex | universal =>
      obtain ⟨rest, behind, rfl⟩ := Option.map_eq_some_iff.mp h
      exact .inr ⟨by rintro ⟨⟩, rest, behind, rfl⟩

/-- How much a reader may yet add to a value for what it has taken in. -/
def Reading.pending : Reading → Nat
  | .plain | .closed => 0
  | .escape => 1
  | .octal _ _ | .hex _ _ | .universal _ _ => 2

/-- The value read of a text is the text itself, or less than it. -/
def Shrinks (p : Char → Bool) (reading : Reading) (s v : Text) : Prop :=
  reading = .plain ∧ v = s ∧ Plain s ∨ v.countP p < s.countP p + reading.pending

variable {p : Char → Bool}

theorem shrinks_iff (counts : reading.Counts) :
    Shrinks p reading s v ↔ v.countP p < s.countP p + 2 := by
  cases reading with
  | plain | escape | closed => exact counts.elim
  | octal | hex | universal => simp [Shrinks, Reading.pending]

theorem Shrinks.countP_le (h : Shrinks p .plain s v) : v.countP p ≤ s.countP p := by
  rcases h with ⟨-, rfl, -⟩ | less
  · exact Nat.le_refl _
  · exact Nat.le_of_lt less

theorem countP_cons_le (p : Char → Bool) (c : Char) (s : Text) :
    s.countP p ≤ (c :: s).countP p ∧ (c :: s).countP p ≤ s.countP p + 1 := by
  rw [List.countP_cons]
  split <;> omega

theorem Shrinks.behind (h : Shrinks p .plain s v) (counts : reading.Counts) (d : Char) :
    Shrinks p reading s (d :: v) := by
  have less := h.countP_le
  have one := countP_cons_le p d v
  exact (shrinks_iff counts).mpr (by omega)

theorem Turn.newline (turn : Turn c reading read next) : c ≠ '\n' := by
  induction turn with
  | keep plain => rintro rfl; exact plain.newline List.mem_cons_self
  | start backslash => subst backslash; decide
  | close quote => subst quote; decide
  | letter known | numeral known => rintro rfl; exact known (by decide)
  | digit _ _ line | last _ line => exact line
  | behind _ _ _ ih => exact ih

theorem Turn.closes (turn : Turn c reading read next) (closed : next = .closed) :
    c = '"' ∧ Shrinks p reading [] read := by
  induction turn with
  | keep | start | letter | last => exact nomatch closed
  | numeral known counts => exact (closed ▸ counts).elim
  | digit counts more => exact (closed ▸ more).elim
  | close quote => exact ⟨quote, .inl ⟨rfl, rfl, plain_nil⟩⟩
  | behind counts d turn ih =>
    obtain ⟨quote, less⟩ := ih closed
    exact ⟨quote, less.behind counts d⟩

section Marks
variable (marks : ∀ c, readEscape c ≠ none → p c = true)
include marks

/-- One character of a text. Whatever may follow a backslash counts, and so an escape leaves less. -/
theorem Turn.shrinks (turn : Turn c reading read next) (opened : next ≠ .closed)
    (h : Shrinks p next s v) : Shrinks p reading (c :: s) (read ++ v) := by
  have one := countP_cons_le p c s
  have counted (mark : p c = true) : (c :: s).countP p = s.countP p + 1 :=
    List.countP_cons_of_pos mark
  induction turn with
  | keep plain =>
    rcases h with ⟨-, rfl, rest⟩ | less
    · exact .inl ⟨rfl, rfl, plain_cons.mpr ⟨plain, rest⟩⟩
    · refine .inr ?_
      rw [List.singleton_append, List.countP_cons, List.countP_cons]
      exact Nat.add_lt_add_right less _
  | start backslash =>
    have more := counted (marks c (by subst backslash; decide))
    rcases h with ⟨none, -⟩ | less
    · exact nomatch none
    · rw [Reading.pending] at less
      exact .inr (by rw [List.nil_append, Reading.pending]; omega)
  | close => exact absurd rfl opened
  | letter known d =>
    have more := counted (marks c known)
    have less := h.countP_le
    have value := countP_cons_le p d v
    exact .inr (by rw [List.singleton_append, Reading.pending]; omega)
  | numeral known counts =>
    have more := counted (marks c known)
    have less := (shrinks_iff counts).mp h
    exact .inr (by rw [List.nil_append, Reading.pending]; omega)
  | digit counts more line =>
    have less := (shrinks_iff more).mp h
    exact (shrinks_iff counts).mpr (by rw [List.nil_append]; omega)
  | last counts line d =>
    have less := h.countP_le
    have value := countP_cons_le p d v
    exact (shrinks_iff counts).mpr (by rw [List.singleton_append]; omega)
  | behind counts d turn ih => exact (ih opened h).behind counts d

/-- All characters up to the quotation mark that closes a literal. -/
theorem readFrom_shrinks (h : readFrom reading s = some v) :
    ∃ front back, s = front ++ '"' :: back ∧ '\n' ∉ front ∧ Shrinks p reading front v := by
  induction s generalizing reading v with
  | nil => exact nomatch h
  | cons c s ih =>
    obtain ⟨read, next, turn, ⟨rfl, rfl⟩ | ⟨opened, rest, behind, rfl⟩⟩ := readFrom_cons_eq_some h
    · obtain ⟨rfl, shrinks⟩ := (turn_of_step turn).closes rfl
      exact ⟨[], s, rfl, List.not_mem_nil, shrinks⟩
    · obtain ⟨front, back, rfl, lines, shrinks⟩ := ih behind
      have line := (turn_of_step turn).newline
      refine ⟨c :: front, back, rfl, ?_, (turn_of_step turn).shrinks marks opened shrinks⟩
      exact fun mem => (List.mem_cons.mp mem).elim line.symm lines

theorem countP_splice (s : Text) : splice s = s ∨ (splice s).countP p < s.countP p := by
  fun_induction splice s with
  | case1 => exact .inl rfl
  | case2 c => exact .inl rfl
  | case3 c d r spliced ih =>
    have mark : p c = true := marks c (by simp at spliced; rw [spliced.1]; decide)
    have one := countP_cons_le p d r
    have two : (c :: d :: r).countP p = (d :: r).countP p + 1 := List.countP_cons_of_pos mark
    have rest : (splice r).countP p ≤ r.countP p := by
      rcases ih with same | less
      · exact Nat.le_of_eq (by rw [same])
      · exact Nat.le_of_lt less
    exact .inr (by omega)
  | case4 c d r kept ih =>
    rcases ih with same | less
    · exact .inl (congrArg (c :: ·) same)
    · refine .inr ?_
      rw [List.countP_cons, List.countP_cons]
      exact Nat.add_lt_add_right less _

/-- A reader that takes the last quotation mark of a line for a character meets the line's end. -/
theorem readFrom_line (h : readFrom .plain (s ++ '"' :: ';' :: '\n' :: t) = some v) :
    Shrinks p .plain s v := by
  obtain ⟨front, back, whole, lines, shrinks⟩ := readFrom_shrinks marks h
  rcases List.append_eq_append_iff.mp whole with ⟨extra, rfl, rest⟩ | ⟨inner, rfl, rest⟩
  · obtain rfl : extra = [] := by
      rcases List.cons_eq_append_iff.mp rest with ⟨none, -⟩ | ⟨one, rfl, rest₁⟩
      · exact none
      rcases List.cons_eq_append_iff.mp rest₁ with ⟨-, wrong⟩ | ⟨two, rfl, rest₂⟩
      · exact absurd (List.cons.inj wrong).1 (by decide)
      rcases List.cons_eq_append_iff.mp rest₂ with ⟨-, wrong⟩ | ⟨three, rfl, -⟩
      · exact absurd (List.cons.inj wrong).1 (by decide)
      · exact absurd (by simp) lines
    rwa [List.append_nil] at shrinks
  · cases inner with
    | nil => rwa [List.append_nil]
    | cons c inner =>
      have mark : p '"' = true := marks '"' (by decide)
      have less := shrinks.countP_le
      obtain ⟨rfl, -⟩ := List.cons.inj rest
      refine .inr ?_
      rw [List.countP_append, List.countP_cons_of_pos mark, Reading.pending]
      omega

/-- A literal that ends with its line is read as the text in it only if this is plain, and otherwise
as a text with fewer of the characters that may follow a backslash. -/
theorem value?_shrinks (h : value? (s ++ '"' :: ';' :: '\n' :: t) = some v) :
    v = s ∧ Plain s ∨ v.countP p < s.countP p := by
  have tail : splice (';' :: '\n' :: t) = ';' :: '\n' :: splice t := by
    rw [splice_cons (.inl (by decide)), splice_cons (.inl (by decide))]
  rw [value?, splice_append_quote, tail] at h
  have shrinks := readFrom_line marks h
  rcases countP_splice marks s with same | less
  · rw [same] at shrinks
    exact shrinks.imp And.right id
  · exact .inr (Nat.lt_of_le_of_lt shrinks.countP_le less)

end Marks

end NativeFreeze.CString
