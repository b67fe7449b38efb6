import NativeFreeze.Proofs.Text.Lines
import NativeFreeze.Trace.ImportLog

/-!
# Import logs cut short

A log may be cut anywhere, also inside a line. What comes before the cut yields the same paths as in
the whole log: complete groups are read alike, and a piece of an import line that is read as one
names the module that the whole line names. Hence the paths of a log start with those of every log
that it goes on from.
-/

namespace NativeFreeze.ImportLog

variable {p : Char → Bool} {line name s : Text}

theorem dropWhile_append_of_ne_nil (h : s.dropWhile p ≠ []) (t : Text) :
    (s ++ t).dropWhile p = s.dropWhile p ++ t := by
  rw [List.dropWhile_append, if_neg (by simpa using h)]

theorem takeWhile_append_of_ne_nil (h : s.dropWhile p ≠ []) (t : Text) :
    (s ++ t).takeWhile p = s.takeWhile p := by
  rw [List.takeWhile_append, if_neg]
  intro whole
  have lengths := congrArg List.length (List.takeWhile_append_dropWhile (p := p) (l := s))
  rw [List.length_append, whole] at lengths
  exact h (List.eq_nil_of_length_eq_zero (by omega))

theorem dropQuote_append (h : s ≠ []) (t : Text) : dropQuote (s ++ t) = dropQuote s ++ t := by
  cases s with
  | nil => exact absurd rfl h
  | cons c r => unfold dropQuote; split <;> simp_all

theorem ne_nil_of_dropQuote (h : dropQuote s ≠ []) : s ≠ [] := by
  rintro rfl
  exact h rfl

theorem ne_nil_of_dropWhile (h : s.dropWhile p ≠ []) : s ≠ [] := by
  rintro rfl
  exact h rfl

/-- Whether `c` may stand in a dotted name. -/
def isNamed (c : Char) : Bool :=
  Text.isWord c || c == '.'

/-- What follows the word `import`, from the name on. -/
def fromName (rest : Text) : Text :=
  dropQuote (rest.dropWhile Text.isBlank)

/-- What follows the word `import`, from behind the name on. -/
def behindName (rest : Text) : Text :=
  dropQuote ((fromName rest).dropWhile isNamed)

/-- A line reports an import exactly if the word `import` is followed by blanks, a name, blanks and
the mark of a comment. -/
theorem imported?_eq_some_iff : imported? line = some name ↔
    ∃ rest comment, Text.after? "import".toList line = some rest ∧
      rest.takeWhile Text.isBlank ≠ [] ∧ name ≠ [] ∧ (fromName rest).takeWhile isNamed = name ∧
      (behindName rest).takeWhile Text.isBlank ≠ [] ∧
      (behindName rest).dropWhile Text.isBlank = '#' :: comment := by
  unfold imported?
  cases Text.after? "import".toList line with
  | none => simp
  | some rest =>
    change (if (!(rest.takeWhile Text.isBlank).isEmpty && !((fromName rest).takeWhile isNamed).isEmpty &&
        !((behindName rest).takeWhile Text.isBlank).isEmpty &&
          ((behindName rest).dropWhile Text.isBlank).head? == some '#') = true
      then some ((fromName rest).takeWhile isNamed) else none) = some name ↔ _
    simp only [Option.ite_none_right_eq_some, Bool.and_eq_true, Bool.not_eq_true',
      List.isEmpty_eq_false_iff, beq_iff_eq, List.head?_eq_some_iff, Option.some.injEq]
    constructor
    · rintro ⟨⟨⟨⟨gap, named⟩, space⟩, comment, mark⟩, rfl⟩
      exact ⟨rest, comment, rfl, gap, named, rfl, space, mark⟩
    · rintro ⟨_, comment, rfl, gap, named, rfl, space, mark⟩
      exact ⟨⟨⟨⟨gap, named⟩, space⟩, comment, mark⟩, rfl⟩

/-- What follows the mark of the comment does not matter. -/
theorem imported?_append (h : imported? line = some name) (more : Text) :
    imported? (line ++ more) = some name := by
  obtain ⟨rest, comment, word, gap, named, start, space, mark⟩ := imported?_eq_some_iff.mp h
  -- In front of the mark, every part of the line is followed by something.
  have ends : (behindName rest).dropWhile Text.isBlank ≠ [] := by simp [mark]
  have tail : (fromName rest).dropWhile isNamed ≠ [] :=
    ne_nil_of_dropQuote (ne_nil_of_dropWhile ends)
  have body : rest.dropWhile Text.isBlank ≠ [] := ne_nil_of_dropQuote (ne_nil_of_dropWhile tail)
  have from_append : fromName (rest ++ more) = fromName rest ++ more := by
    rw [fromName, dropWhile_append_of_ne_nil body, dropQuote_append body, fromName]
  have behind_append : behindName (rest ++ more) = behindName rest ++ more := by
    rw [behindName, from_append, dropWhile_append_of_ne_nil tail, dropQuote_append tail, behindName]
  refine imported?_eq_some_iff.mpr ⟨rest ++ more, comment ++ more, Text.after?_append word more,
    ?_, named, ?_, ?_, ?_⟩
  · rwa [takeWhile_append_of_ne_nil body]
  · rwa [from_append, takeWhile_append_of_ne_nil tail]
  · rwa [behind_append, takeWhile_append_of_ne_nil ends]
  · rw [behind_append, dropWhile_append_of_ne_nil ends, mark, List.cons_append]

/-- The context that some lines leave behind: those since the last import line. -/
def contextAfter : (context lines : List Text) → List Text
  | context, [] => context
  | context, line :: rest =>
    if (imported? line).isSome then contextAfter [] rest else contextAfter (context ++ [line]) rest

/-- Lines that follow others are read with the context that those leave behind. -/
theorem parseLines_append (h : Layout) (context lines more : List Text) :
    parseLines h context (lines ++ more) =
      parseLines h context lines ++ parseLines h (contextAfter context lines) more := by
  induction lines generalizing context with
  | nil => simp [parseLines, contextAfter]
  | cons line rest ih =>
    rw [List.cons_append, parseLines, parseLines, contextAfter]
    cases imported? line with
    | none => exact ih _
    | some name =>
      dsimp only
      rw [ih, List.append_assoc]
      rfl

/-- The last line of a log yields nothing that the line does not yield when it goes on. -/
theorem parseLines_last (h : Layout) (context : List Text) {last longer : Text}
    (starts : last <+: longer) (rest : List Text) :
    parseLines h context [last] <+: parseLines h context (longer :: rest) := by
  obtain ⟨more, rfl⟩ := starts
  cases hl : imported? last with
  | none =>
    have nothing : parseLines h context [last] = [] := by simp [parseLines, hl]
    rw [nothing]
    exact List.nil_prefix
  | some name =>
    simp [parseLines, hl, imported?_append hl more]

/-- The paths of a log start with those of the log cut short anywhere. -/
theorem parse_isPrefix_append (h : Layout) (log more : Text) :
    parse h log <+: parse h (log ++ more) := by
  rw [parse, parse, lines, lines]
  rcases Text.lines_append log more with ⟨rest, whole⟩ | ⟨front, last, added, rest, short, long⟩
  · rw [← whole, List.map_append, parseLines_append]
    exact List.prefix_append _ _
  · rw [short, long, List.map_append, List.map_append, parseLines_append, parseLines_append]
    apply (List.prefix_append_right_inj _).mpr
    exact parseLines_last h _ (Text.trimEnd_isPrefix_append _ last added) _

/-- Two cuts through one import line: before the mark of its comment it is no import yet. -/
example :
    let h := Layout.posix ⟨"/py".toList⟩ "3.11".toList ".so".toList
    parse h "# /py/a.py\nimport a ".toList = [] ∧
      parse h "# /py/a.py\nimport a #".toList = [⟨"/py/a.py".toList⟩] := by
  decide +kernel

end NativeFreeze.ImportLog
