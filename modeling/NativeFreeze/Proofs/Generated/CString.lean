import NativeFreeze.Generated.CString

/-!
# How a compiler reads a string literal

Line splices are taken out first; then a literal is read character by character up to the quotation
mark that closes it. `CString.escape` is right about this: an escaped text without line breaks reads
as the text, and a text without backslashes and quotation marks needs no escapes.
-/

namespace NativeFreeze.CString

/-- A text without the line breaks that stand behind a backslash. -/
def splice : Text → Text
  | [] => []
  | [c] => [c]
  | c :: d :: r => if c = '\\' && d = '\n' then splice r else c :: splice (d :: r)

/-- Where a reader stands in a literal: between characters, behind a backslash, in a numeral with so
many digits, in one with so many digits to come, or behind the end. -/
inductive Reading
  | plain
  | escape
  | octal (digits value : Nat)
  | hex (digits value : Nat)
  | universal (left value : Nat)
  | closed
  deriving DecidableEq, Repr

/-- The value of a digit to a base of at most sixteen. -/
def digit? (base : Nat) (c : Char) : Option Nat :=
  match "0123456789abcdef".toList.idxOf? c.toLower with
  | some n => if n < base then some n else none
  | none => none

/-- The character with a code. -/
def char? (code : Nat) : Option Char :=
  if code.isValidChar then some (Char.ofNat code) else none

/-- The escapes of one letter and the codes that they stand for. -/
def letters : List (Char × Nat) :=
  [('a', 7), ('b', 8), ('t', 9), ('n', 10), ('v', 11), ('f', 12), ('r', 13), ('"', 34),
    (Char.ofNat 39, 39), ('?', 63), ('\\', 92)]

/-- Reads a character outside escapes. -/
def readPlain (c : Char) : Option (Text × Reading) :=
  if c = '"' then some ([], .closed)
  else if c = '\\' then some ([], .escape)
  else if c = '\n' || c = '\r' then none
  else some ([c], .plain)

/-- Reads the character behind a backslash. -/
def readEscape (c : Char) : Option (Text × Reading) :=
  if c = 'x' then some ([], .hex 0 0)
  else if c = 'u' then some ([], .universal 4 0)
  else if c = 'U' then some ([], .universal 8 0)
  else
    match digit? 8 c, letters.lookup c with
    | some d, _ => some ([], .octal 1 d)
    | none, some code => (char? code).map fun d => ([d], .plain)
    | none, none => none

/-- Reads the character behind a numeral. -/
def readBehind (value : Nat) (c : Char) : Option (Text × Reading) :=
  match char? value, readPlain c with
  | some d, some (read, next) => some (d :: read, next)
  | _, _ => none

/-- Reads one character: what it adds to the value, and where the reader stands then. -/
def step : Reading → Char → Option (Text × Reading)
  | .plain, c => readPlain c
  | .escape, c => readEscape c
  | .octal digits value, c =>
    match digit? 8 c with
    | some d => if digits < 3 then some ([], .octal (digits + 1) (8 * value + d)) else readBehind value c
    | none => readBehind value c
  | .hex digits value, c =>
    match digit? 16 c with
    | some d => some ([], .hex (digits + 1) (16 * value + d))
    | none => if digits = 0 then none else readBehind value c
  | .universal left value, c =>
    match digit? 16 c with
    | some d =>
      if left = 1 then (char? (16 * value + d)).map fun d => ([d], .plain)
      else some ([], .universal (left - 1) (16 * value + d))
    | none => none
  | .closed, _ => none

/-- Reads up to the end of a literal. -/
def readFrom : Reading → Text → Option Text
  | _, [] => none
  | reading, c :: r =>
    match step reading c with
    | none => none
    | some (read, .closed) => some read
    | some (read, next) => (readFrom next r).map (read ++ ·)

/-- Reads up to the end of a literal: its value, and what stands behind the mark that closes it. -/
def literalFrom : Reading → Text → Option (Text × Text)
  | _, [] => none
  | reading, c :: r =>
    match step reading c with
    | none => none
    | some (read, .closed) => some (read, r)
    | some (read, next) => (literalFrom next r).map fun (v, rest) => (read ++ v, rest)

/-- The value of the literal whose inside a text starts with. -/
def value? (s : Text) : Option Text :=
  readFrom .plain (splice s)

variable {s t : Text} {c : Char}

theorem splice_cons (h : c ≠ '\\' ∨ t.head? ≠ some '\n') : splice (c :: t) = c :: splice t := by
  cases t with
  | nil => rfl
  | cons d r =>
    have apart : ¬(c = '\\' && d = '\n') = true := by
      rcases h with h | h
      · simp [h]
      · have other : d ≠ '\n' := by simpa using h
        simp [other]
    rw [splice, if_neg apart]

theorem escape_cons (c : Char) (s : Text) :
    escape (c :: s) = (if c = '\\' || c = '"' then ['\\', c] else [c]) ++ escape s := rfl

/-- What needs no escapes. -/
theorem escape_eq_self (backslash : '\\' ∉ s) (quote : '"' ∉ s) : escape s = s := by
  induction s with
  | nil => rfl
  | cons c s ih =>
    simp only [List.mem_cons, not_or] at backslash quote
    rw [escape_cons, ih backslash.2 quote.2]
    simp [Ne.symm backslash.1, Ne.symm quote.1]

theorem not_mem_escape (lines : '\n' ∉ s) : '\n' ∉ escape s := by
  intro mem
  obtain ⟨c, hc, inside⟩ := List.mem_flatMap.mp mem
  have line : '\n' ≠ c := fun h => lines (h ▸ hc)
  split at inside <;> simp [line] at inside

/-- Without line breaks there is nothing to splice. -/
theorem splice_eq_self (lines : '\n' ∉ s) : splice s = s := by
  induction s with
  | nil => rfl
  | cons c s ih =>
    simp only [List.mem_cons, not_or] at lines
    have next : s.head? ≠ some '\n' := fun h => lines.2 (List.mem_of_head? h)
    rw [splice_cons (.inr next), ih lines.2]

/-- Splices stay on one side of a quotation mark. -/
theorem splice_append_quote (s t : Text) : splice (s ++ '"' :: t) = splice s ++ '"' :: splice t := by
  have quote : splice ('"' :: t) = '"' :: splice t := splice_cons (.inl (by decide))
  fun_induction splice s with
  | case1 => exact quote
  | case2 c => exact (splice_cons (.inr (by simp))).trans (congrArg (c :: ·) quote)
  | case3 c d r spliced ih =>
    rw [List.cons_append, List.cons_append, splice, if_pos spliced, ih]
  | case4 c d r kept ih =>
    rw [List.cons_append, List.cons_append, splice, if_neg kept]
    exact congrArg (c :: ·) ih

theorem map_fst_literalFrom (reading : Reading) (s : Text) :
    (literalFrom reading s).map Prod.fst = readFrom reading s := by
  induction s generalizing reading with
  | nil => rfl
  | cons c s ih =>
    rw [literalFrom, readFrom]
    cases step reading c with
    | none => rfl
    | some found =>
      obtain ⟨read, next⟩ := found
      cases next with
      | closed => rfl
      | plain | escape | octal | hex | universal =>
        dsimp only
        rw [← ih, Option.map_map, Option.map_map]
        rfl

/-- An escaped text adds itself to what is read behind it. -/
theorem literalFrom_escape_append (lines : '\n' ∉ s) (returns : '\r' ∉ s) (t : Text) :
    literalFrom .plain (escape s ++ t) =
      (literalFrom .plain t).map fun (v, rest) => (s ++ v, rest) := by
  induction s with
  | nil => simp
  | cons c s ih =>
    simp only [List.mem_cons, not_or] at lines returns
    have rest := ih lines.2 returns.2
    rw [escape_cons]
    have opened : step .plain '\\' = some ([], .escape) := rfl
    by_cases backslash : c = '\\'
    · subst backslash
      have read : step .escape '\\' = some (['\\'], .plain) := by decide
      simp [literalFrom, opened, read, rest, Function.comp_def]
    · by_cases quote : c = '"'
      · subst quote
        have read : step .escape '"' = some (['"'], .plain) := by decide
        simp [literalFrom, opened, read, rest, Function.comp_def]
      · have read : step .plain c = some ([c], .plain) := by
          simp [step, readPlain, backslash, quote, Ne.symm lines.1, Ne.symm returns.1]
        simp [backslash, quote, literalFrom, read, rest, Function.comp_def]

/-- The mark behind an escaped text is the first that closes the literal. -/
theorem literalFrom_escape (lines : '\n' ∉ s) (returns : '\r' ∉ s) (t : Text) :
    literalFrom .plain (escape s ++ '"' :: t) = some (s, t) := by
  have closed : literalFrom .plain ('"' :: t) = some ([], t) := rfl
  simp [literalFrom_escape_append lines returns, closed]

theorem readFrom_escape (lines : '\n' ∉ s) (returns : '\r' ∉ s) (t : Text) :
    readFrom .plain (escape s ++ '"' :: t) = some s := by
  rw [← map_fst_literalFrom, literalFrom_escape lines returns, Option.map_some]

/-- An escaped text without line breaks reads as the text. -/
theorem value?_escape (lines : '\n' ∉ s) (returns : '\r' ∉ s) (t : Text) :
    value? (escape s ++ '"' :: t) = some s := by
  rw [value?, splice_append_quote, splice_eq_self (not_mem_escape lines),
    readFrom_escape lines returns]

/-- Without escapes, backslashes are read: a tab. -/
example : value? "run\\time\";".toList = some "run\time".toList := by decide +kernel

end NativeFreeze.CString
