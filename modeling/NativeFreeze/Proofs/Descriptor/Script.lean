import NativeFreeze.Proofs.Generated.CString

/-!
# How a resource script is read

Outside the lines for the preprocessor a resource script is words, commas and strings. In a string two
quotation marks stand for one, a backslash may start an escape, and a line break is refused. So a text
is the value of the string that it is put into as it is exactly if it is `Verbatim`: every other text
is refused or read as a shorter one, since escapes and doubled marks take more than they give.
-/

namespace NativeFreeze.ResourceScript

/-! ## Strings -/

/-- Where a reader stands in a string: between characters, behind a quotation mark, behind a
backslash, or in a numeral that so many digits may still belong to. -/
inductive Reading
  | plain
  | mark
  | escape
  | numeral (base left value : Nat)
  deriving DecidableEq, Repr

/-- The octal digits, each at the place of its value. -/
def octalDigits : Text :=
  "01234567".toList

/-- The escapes of one letter and the codes that they stand for. -/
def letters : List (Char × Nat) :=
  [('a', 8), ('b', 8), ('f', 12), ('n', 10), ('r', 13), ('t', 9), ('v', 11), ('"', 34), ('\\', 92)]

/-- Reads a character outside escapes. -/
def readPlain (c : Char) : Option (Text × Reading) :=
  if c = '"' then some ([], .mark)
  else if c = '\\' then some ([], .escape)
  else if c = '\n' || c = '\r' then none
  else some ([c], .plain)

/-- Reads a character in front of which an escape has ended. -/
def readBehind (escaped c : Char) : Option (Text × Reading) :=
  (readPlain c).map fun (read, next) => (escaped :: read, next)

/-- Reads the character behind a backslash; one that makes no escape leaves the backslash. -/
def readEscape (c : Char) : Option (Text × Reading) :=
  if c = 'x' || c = 'X' then some ([], .numeral 16 2 0)
  else
    match octalDigits.idxOf? c, letters.lookup c with
    | some d, _ => some ([], .numeral 8 2 d)
    | none, some code => some ([Char.ofNat code], .plain)
    | none, none => readBehind '\\' c

/-- Reads one character: what it adds to the value, and where the reader stands then. -/
def Reading.step : Reading → Char → Option (Text × Reading)
  | .plain, c => readPlain c
  | .mark, c => if c = '"' then some (['"'], .plain) else none
  | .escape, c => readEscape c
  | .numeral base left value, c =>
    match CString.digit? base c with
    | some d =>
      if left = 0 then readBehind (Char.ofNat value) c
      else some ([], .numeral base (left - 1) (base * value + d))
    | none => readBehind (Char.ofNat value) c

/-! ## Tokens -/

/-- The tokens of a resource script. -/
inductive Token
  | word (w : Text)
  | comma
  | text (value : Text)
  deriving DecidableEq, Repr

/-- Where a reader stands in a script: in front of the first token of a line, behind a token, in a line
for the preprocessor, in a word, or in a string with a value so far. -/
inductive State
  | line
  | between
  | directive
  | word (w : Text)
  | string (reading : Reading) (value : Text)
  deriving DecidableEq, Repr

/-- Reads a character that no token goes on with. -/
def first (c : Char) : List Token × State :=
  if c = '"' then ([], .string .plain [])
  else if c = ',' then ([.comma], .between)
  else if c = '\n' then ([], .line)
  else if c = ' ' || c = '\t' || c = '\r' then ([], .between)
  else ([], .word [c])

/-- Reads one character: the tokens that it ends, and where the reader stands then. -/
def State.step : State → Char → Option (List Token × State)
  | .line, c =>
    if c = '#' then some ([], .directive)
    else if c = ' ' || c = '\t' then some ([], .line)
    else some (first c)
  | .between, c => some (first c)
  | .directive, c => some ([], if c = '\n' then .line else .directive)
  | .word w, c =>
    match first c with
    | (_, .word r) => some ([], .word (w ++ r))
    | (ended, next) => some (.word w :: ended, next)
  | .string reading value, c =>
    if reading = .mark ∧ c ≠ '"' then
      let (ended, next) := first c
      some (.text value :: ended, next)
    else (reading.step c).map fun (read, next) => ([], .string next (value ++ read))

/-- Reads a text: the tokens that end in it, and where the reader stands behind it. -/
def run : State → Text → Option (List Token × State)
  | s, [] => some ([], s)
  | s, c :: r =>
    (s.step c).bind fun (ended, next) =>
      (run next r).map fun (tokens, last) => (ended ++ tokens, last)

/-- The tokens of a script, whose end ends a line. -/
def tokens? (script : Text) : Option (List Token) :=
  (run .line (script ++ ['\n'])).map Prod.fst

/-! ## Contents -/

/-- What a script says about an executable: its icon, and the entries of the block of its strings. -/
structure Contents where
  icon : Option Text
  entries : List (Text × Text)
  deriving DecidableEq, Repr

/-- The icon, if the script starts with one. -/
def icon? : List Token → Option Text
  | .word _ :: .word kind :: .text path :: _ => if kind = "ICON".toList then some path else none
  | _ => none

/-- What begins the block of the strings. -/
def stringBlock : List Token :=
  [.word "BLOCK".toList, .text "040904B0".toList, .word "BEGIN".toList]

/-- What follows the first beginning of a block of strings. -/
def stringBlock? : List Token → Option (List Token)
  | [] => none
  | t :: ts =>
    if stringBlock.isPrefixOf (t :: ts) then some (ts.drop 2) else stringBlock? ts

/-- The entries in front of the end of a block. -/
def entries? : List Token → Option (List (Text × Text))
  | .word w :: .text key :: .comma :: .text value :: ts =>
    if w = "VALUE".toList then (entries? ts).map ((key, value) :: ·) else none
  | .word w :: _ => if w = "END".toList then some [] else none
  | _ => none

/-- Reads a script. -/
def read? (script : Text) : Option Contents := do
  let tokens ← tokens? script
  let block ← stringBlock? tokens
  let entries ← entries? block
  return ⟨icon? tokens, entries⟩

variable {s next last : State} {a b t u v w x out : Text} {c : Char} {r after : Reading}
  {ts us : List Token}

theorem run_append (s : State) (a b : Text) : run s (a ++ b) =
    (run s a).bind fun (ended, next) =>
      (run next b).map fun (tokens, last) => (ended ++ tokens, last) := by
  induction a generalizing s with
  | nil => simp [run]
  | cons c a ih =>
    rw [List.cons_append, run, run]
    cases s.step c with
    | none => rfl
    | some p =>
      obtain ⟨ended, next⟩ := p
      simp only [Option.bind_some]
      rw [ih]
      cases run next a with
      | none => rfl
      | some q => simp [Function.comp_def]

theorem run_append_of (before : run s a = some (ts, next)) : run s (a ++ b) =
    (run next b).map fun (tokens, last) => (ts ++ tokens, last) := by
  rw [run_append, before, Option.bind_some]

theorem run_append_eq_some (before : run s a = some (ts, next))
    (behind : run next b = some (us, last)) : run s (a ++ b) = some (ts ++ us, last) := by
  rw [run_append_of before, behind, Option.map_some]

theorem exists_of_run_append (before : run s a = some (ts, next))
    (whole : run s (a ++ b) = some (us, last)) :
    ∃ tokens, us = ts ++ tokens ∧ run next b = some (tokens, last) := by
  rw [run_append_of before] at whole
  simp only [Option.map_eq_some_iff, Prod.exists, Prod.mk.injEq] at whole
  obtain ⟨tokens, last, behind, rfl, rfl⟩ := whole
  exact ⟨tokens, rfl, behind⟩

theorem run_string_of_step (opens : r = .mark → c = '"') :
    run (.string r u) (c :: t) =
      (r.step c).bind fun (out, after) => run (.string after (u ++ out)) t := by
  have inside : ¬(r = .mark ∧ c ≠ '"') := fun closes => closes.2 (opens closes.1)
  rw [run, State.step, if_neg inside]
  cases r.step c with
  | none => rfl
  | some p => simp

theorem run_string_step (read : r.step c = some (out, after)) (opens : r = .mark → c = '"') :
    run (.string r u) (c :: t) = run (.string after (u ++ out)) t := by
  rw [run_string_of_step opens, read, Option.bind_some]

/-- Inside a string the next character ends it or is read into it. -/
theorem run_string_cases (whole : run (.string r u) (c :: t) = some (ts, last)) :
    (r = .mark ∧ c ≠ '"' ∧ ∃ us, ts = .text u :: us) ∨
      ∃ out after, r.step c = some (out, after) ∧
        run (.string after (u ++ out)) t = some (ts, last) := by
  by_cases closes : r = .mark ∧ c ≠ '"'
  · rw [run, State.step, if_pos closes, Option.bind_some] at whole
    simp only [Option.map_eq_some_iff, Prod.exists, Prod.mk.injEq] at whole
    obtain ⟨us, last, -, rfl, rfl⟩ := whole
    exact .inl ⟨closes.1, closes.2, _, rfl⟩
  · have opens : r = .mark → c = '"' := fun h => by simpa [h] using closes
    rw [run_string_of_step opens] at whole
    obtain ⟨⟨out, after⟩, read, rest⟩ := Option.bind_eq_some_iff.mp whole
    exact .inr ⟨out, after, read, rest⟩

/-! ## Texts that a string holds as they are -/

/-- The characters that make an escape behind a backslash. -/
def escapes : Text :=
  'x' :: 'X' :: octalDigits ++ letters.map Prod.fst

/-- A text without quotation marks and line breaks in which every backslash is followed by a
character that makes no escape. -/
def Verbatim : Text → Prop
  | [] => True
  | c :: v => c ∉ ['"', '\n', '\r'] ∧ (c = '\\' → v.head?.any (· ∉ escapes)) ∧ Verbatim v

instance decidableVerbatim : DecidablePred Verbatim
  | [] => isTrue trivial
  | c :: v =>
    have := decidableVerbatim v
    inferInstanceAs (Decidable (c ∉ ['"', '\n', '\r'] ∧
      (c = '\\' → v.head?.any (· ∉ escapes)) ∧ Verbatim v))

theorem readPlain_of_ne (other : c ∉ ['"', '\n', '\r']) (backslash : c ≠ '\\') :
    readPlain c = some ([c], .plain) := by
  simp only [List.mem_cons, List.not_mem_nil, or_false, not_or] at other
  simp [readPlain, other, backslash]

theorem not_mem_escapes : c ∉ escapes ↔
    (c ≠ 'x' ∧ c ≠ 'X') ∧ octalDigits.idxOf? c = none ∧ letters.lookup c = none := by
  rw [List.idxOf?_eq_none_iff]
  simp [escapes, letters, and_assoc]

theorem readEscape_of_not_mem (h : c ∉ escapes) : readEscape c = readBehind '\\' c := by
  obtain ⟨⟨x, X⟩, digit, letter⟩ := not_mem_escapes.mp h
  simp [readEscape, x, X, digit, letter]

theorem readEscape_eq_some (harmless : c ∉ escapes) (other : c ∉ ['"', '\n', '\r']) :
    readEscape c = some (['\\', c], .plain) := by
  have backslash : c ≠ '\\' := fun h => harmless (h ▸ by decide)
  rw [readEscape_of_not_mem harmless, readBehind, readPlain_of_ne other backslash, Option.map_some]

theorem not_mem_of_readEscape (harmless : c ∉ escapes) (h : readEscape c = some (out, after)) :
    c ∉ ['"', '\n', '\r'] := by
  simp only [List.mem_cons, List.not_mem_nil, or_false]
  rintro (rfl | rfl | rfl)
  · exact harmless (by decide)
  · have refused : readEscape '\n' = none := rfl
    rw [refused] at h
    cases h
  · have refused : readEscape '\r' = none := rfl
    rw [refused] at h
    cases h

/-- A text that is verbatim is read as it is, also behind a backslash that starts no escape. -/
theorem run_verbatim (h : Verbatim v) (u t : Text) :
    run (.string .plain u) (v ++ t) = run (.string .plain (u ++ v)) t ∧
      (v.head?.any (· ∉ escapes) →
        run (.string .escape u) (v ++ t) = run (.string .plain (u ++ '\\' :: v)) t) := by
  induction v generalizing u with
  | nil => simp
  | cons c v ih =>
    obtain ⟨other, follows, rest⟩ := h
    constructor
    · rw [List.cons_append, run_string_of_step (by simp), Reading.step]
      by_cases backslash : c = '\\'
      · subst backslash
        simpa [readPlain] using (ih rest u).2 (follows rfl)
      · simpa [readPlain_of_ne other backslash] using (ih rest (u ++ [c])).1
    · intro follows
      have harmless : c ∉ escapes := by simpa using follows
      rw [List.cons_append, run_string_of_step (by simp), Reading.step,
        readEscape_eq_some harmless other]
      simpa using (ih rest (u ++ ['\\', c])).1

/-! ## Every other text is read as a shorter one -/

/-- How many characters a reader has read that may still add one to the value. -/
def Reading.owed : Reading → Nat
  | .plain => 0
  | _ => 1

theorem length_readPlain (h : readPlain c = some (out, after)) : out.length + after.owed ≤ 1 := by
  grind [readPlain, Reading.owed]

theorem length_readBehind {d : Char} (h : readBehind d c = some (out, after)) :
    out.length + after.owed ≤ 2 := by
  simp only [readBehind, Option.map_eq_some_iff, Prod.exists, Prod.mk.injEq] at h
  obtain ⟨read, after, plain, rfl, rfl⟩ := h
  have := length_readPlain plain
  simp only [List.length_cons]
  omega

/-- An escape gives less than the two characters that start it. -/
theorem length_readEscape (escaping : c ∈ escapes) (h : readEscape c = some (out, after)) :
    out.length + after.owed ≤ 1 := by
  unfold readEscape at h
  split at h
  · cases h
    simp [Reading.owed]
  · rename_i hex
    split at h
    · cases h
      simp [Reading.owed]
    · cases h
      simp [Reading.owed]
    · rename_i digit letter
      exact absurd escaping (not_mem_escapes.mpr ⟨by simpa using hex, digit, letter⟩)

theorem Reading.length_step (h : r.step c = some (out, after)) :
    out.length + after.owed ≤ r.owed + 1 := by
  cases r with
  | plain => exact length_readPlain h
  | mark =>
    simp only [step] at h
    split at h <;> cases h
    simp [owed]
  | escape =>
    rw [step] at h
    by_cases escaping : c ∈ escapes
    · exact Nat.le_succ_of_le (length_readEscape escaping h)
    · rw [readEscape_of_not_mem escaping] at h
      exact length_readBehind h
  | numeral base left value =>
    simp only [step] at h
    split at h
    · split at h
      · exact length_readBehind h
      · cases h
        simp [owed]
    · exact length_readBehind h

theorem Reading.step_line (r : Reading) : r.step '\n' = none := by
  cases r with
  | plain => rfl
  | mark => rfl
  | escape => rfl
  | numeral base left value =>
    have none : CString.digit? base '\n' = none := rfl
    rw [step, none]
    rfl

/-- A string that is read beyond a line break has ended in front of it, with a value that is shorter
than what it is read from. -/
theorem length_value (whole : run (.string r u) (w ++ '\n' :: t) = some (ts, last)) :
    ∃ x us, ts = .text x :: us ∧ x.length + 1 ≤ u.length + r.owed + w.length := by
  induction w generalizing r u with
  | nil =>
    obtain ⟨rfl, -, us, h⟩ | ⟨out, after, read, -⟩ := run_string_cases whole
    · exact ⟨u, us, h, by simp [Reading.owed]⟩
    · rw [Reading.step_line] at read
      cases read
  | cons c w ih =>
    obtain ⟨rfl, -, us, h⟩ | ⟨out, after, read, rest⟩ := run_string_cases whole
    · exact ⟨u, us, h, by simp [Reading.owed]⟩
    · obtain ⟨x, us, h, length⟩ := ih rest
      have := Reading.length_step read
      refine ⟨x, us, h, ?_⟩
      simp only [List.length_append, List.length_cons] at length ⊢
      omega

theorem length_value_le
    (whole : run (.string r u) (v ++ '"' :: '\n' :: t) = some (.text x :: ts, last)) :
    x.length ≤ u.length + r.owed + v.length := by
  rw [List.append_cons] at whole
  obtain ⟨y, us, h, length⟩ := length_value whole
  obtain rfl : x = y := Token.text.inj (List.head_eq_of_cons_eq h)
  rw [List.length_append, List.length_singleton] at length
  omega

/-- Where a quotation mark is doubled the string is still open, and a line break is refused. -/
theorem run_string_line (plain : r ≠ .mark) : run (.string r u) ('\n' :: t) = none := by
  rw [run_string_of_step (fun mark => absurd mark plain), Reading.step_line, Option.bind_none]

/-- A string that goes on behind a quotation mark has lost it or ends in front of it. -/
theorem length_value_mark
    (whole : run (.string .mark u) (v ++ '"' :: '\n' :: t) = some (.text x :: ts, last)) :
    x.length ≤ u.length + v.length := by
  cases v with
  | nil =>
    have read : Reading.mark.step '"' = some (['"'], .plain) := rfl
    rw [List.nil_append, run_string_step read (fun _ => rfl), run_string_line (by decide)] at whole
    cases whole
  | cons c v =>
    obtain ⟨-, -, us, h⟩ | ⟨out, after, read, rest⟩ := run_string_cases whole
    · obtain rfl : x = u := Token.text.inj (List.head_eq_of_cons_eq h)
      omega
    · have := length_value_le rest
      rw [Reading.step] at read
      split at read <;> cases read
      simp only [List.length_append, List.length_cons, List.length_nil, Reading.owed] at this ⊢
      omega

/-- Only a verbatim text is read as it is, and only in front of a character that makes no escape is a
backslash kept. -/
theorem verbatim_of_run (u : Text) :
    (run (.string .plain u) (v ++ '"' :: '\n' :: t) = some (.text (u ++ v) :: ts, last) →
        Verbatim v) ∧
      (run (.string .escape u) (v ++ '"' :: '\n' :: t) = some (.text (u ++ '\\' :: v) :: ts, last) →
        v.head?.any (· ∉ escapes) ∧ Verbatim v) := by
  -- A backslash leads from the first part to the second, and the character behind it back.
  induction v generalizing u with
  | nil =>
    refine ⟨fun _ => trivial, fun whole => ?_⟩
    have read : Reading.escape.step '"' = some (['"'], .plain) := by decide
    rw [List.nil_append, run_string_step read (by simp), run_string_line (by decide)] at whole
    cases whole
  | cons c v ih =>
    constructor
    · intro whole
      rw [List.cons_append, run_string_of_step (by simp), Reading.step, readPlain] at whole
      split at whole
      · -- Whether the mark ends the string or is doubled, the value is too short.
        have := length_value_mark whole
        simp only [List.length_append, List.length_cons, List.length_nil] at this
        omega
      · rename_i quote
        split at whole
        · rename_i backslash
          subst backslash
          obtain ⟨follows, rest⟩ := (ih u).2 (by simpa using whole)
          exact ⟨by decide, fun _ => follows, rest⟩
        · rename_i backslash
          split at whole
          · cases whole
          · rename_i line
            have rest := (ih (u ++ [c])).1 (by simpa using whole)
            exact ⟨by simpa [quote] using line, fun h => absurd h backslash, rest⟩
    · intro whole
      rw [List.cons_append, run_string_of_step (by simp), Reading.step] at whole
      obtain ⟨⟨out, after⟩, read, rest⟩ := Option.bind_eq_some_iff.mp whole
      by_cases escaping : c ∈ escapes
      · have shorter := length_readEscape escaping read
        have := length_value_le rest
        simp only [List.length_append, List.length_cons] at this
        omega
      · have other := not_mem_of_readEscape escaping read
        rw [readEscape_eq_some escaping other] at read
        cases read
        have verbatim := (ih (u ++ ['\\', c])).1 (by simpa using rest)
        have kept : c ≠ '\\' := fun h => escaping (h ▸ by decide)
        exact ⟨by simpa using escaping, other, fun h => absurd h kept, verbatim⟩

/-- Without escapes, a backslash in a path is read: a tab. -/
example : tokens? "\"C:\\temp\"".toList = some [.text "C:\temp".toList] := by decide +kernel

theorem run_quote (u t : Text) :
    run (.string .plain u) ('"' :: t) = run (.string .mark u) t := by
  have read : Reading.plain.step '"' = some ([], .mark) := rfl
  rw [run_string_step read (by simp), List.append_nil]

/-- A verbatim text is the value of the string that ends a line with it. -/
theorem run_value (h : Verbatim v) (t : Text) : run (.string .plain []) (v ++ '"' :: '\n' :: t) =
    (run .line t).map fun (ts, last) => (.text v :: ts, last) := by
  have closed : (State.string .mark v).step '\n' = some ([.text v], .line) := rfl
  rw [(run_verbatim h [] _).1, List.nil_append, run_quote, run, closed]
  rfl

theorem verbatim_of_forall (h : ∀ c ∈ v, c ∉ ['"', '\\', '\n', '\r']) : Verbatim v := by
  induction v with
  | nil => trivial
  | cons c v ih =>
    obtain ⟨head, tail⟩ := List.forall_mem_cons.mp h
    simp only [List.mem_cons, List.not_mem_nil, or_false, not_or] at head
    exact ⟨by simp [head], fun backslash => absurd backslash head.2.1, ih tail⟩

/-! ## A line that ends with a string -/

variable {front behind : Text} {opened : List Token}

theorem append_line (front v behind : Text) : front ++ v ++ "\"\n".toList ++ behind =
    front ++ (v ++ '"' :: '\n' :: behind) := by
  rw [List.append_assoc, List.append_assoc]
  rfl

/-- Whatever the text, a string is read where its quotation mark stands. -/
theorem exists_run_line_text (opens : run .line front = some (opened, .string .plain []))
    (whole : run .line (front ++ v ++ "\"\n".toList ++ behind) = some (ts, last)) :
    ∃ x us, ts = opened ++ .text x :: us := by
  rw [append_line] at whole
  obtain ⟨us, rfl, read⟩ := exists_of_run_append opens whole
  rw [List.append_cons] at read
  obtain ⟨x, us, rfl, -⟩ := length_value read
  exact ⟨x, us, rfl⟩

/-- The value of the string is the text exactly if the text is verbatim, and then the next line is read
on its own. -/
theorem run_line_text (opens : run .line front = some (opened, .string .plain [])) :
    run .line (front ++ v ++ "\"\n".toList ++ behind) = some (opened ++ .text v :: ts, last) ↔
      Verbatim v ∧ run .line behind = some (ts, last) := by
  rw [append_line]
  constructor
  · intro whole
    obtain ⟨us, h, read⟩ := exists_of_run_append opens whole
    obtain rfl := List.append_cancel_left h
    have verbatim := (verbatim_of_run []).1 read
    rw [run_value verbatim] at read
    simp only [Option.map_eq_some_iff, Prod.exists, Prod.mk.injEq, List.cons.injEq,
      true_and] at read
    obtain ⟨ts, last, rest, rfl, rfl⟩ := read
    exact ⟨verbatim, rest⟩
  · rintro ⟨verbatim, rest⟩
    refine run_append_eq_some opens ?_
    rw [run_value verbatim, rest]
    rfl

end NativeFreeze.ResourceScript
