import NativeFreeze.Generated.Finder
import NativeFreeze.Proofs.Generated.CString
import NativeFreeze.Proofs.Text.Replace

/-!
# Adjacent literals

A compiler puts literals together that have nothing but white space between them; each is read on its
own first. Escaping loses nothing: a text without line breaks is read back from its literal, and what
stands behind the literal is left alone. So the literals of the finder come to its script, line by line.
-/

namespace NativeFreeze.CString

variable {s t v w rest line : Text} {c : Char} {reading : Reading} {lines : List Text}

/-! ## Escaping in two steps -/

/-- Backslashes are doubled first; then quotation marks get one, which is not doubled again. -/
theorem escape_eq_replace (s : Text) : escape s =
    Text.replace ['"'] ['\\', '"'] (Text.replace ['\\'] ['\\', '\\'] s) := by
  rw [Text.replace_char, Text.replace_char, List.flatMap_assoc, escape]
  congr
  funext c
  by_cases backslash : c = '\\'
  · simp [backslash]
  · by_cases quote : c = '"'
    · simp [quote]
    · simp [backslash, quote]

/-! ## One literal -/

/-- The value of the literal that a text starts with, and what stands behind the literal. -/
def literal? (s : Text) : Option (Text × Text) :=
  match splice s with
  | '"' :: r => literalFrom .plain r
  | _ => none

theorem splice_quoted (lines : '\n' ∉ s) (t : Text) :
    splice ('"' :: s ++ '"' :: t) = '"' :: s ++ '"' :: splice t := by
  have quote : splice ('"' :: s) = '"' :: splice s := splice_cons (.inl (by decide))
  rw [splice_append_quote, quote, splice_eq_self lines]

theorem literal?_escape (lines : '\n' ∉ s) (returns : '\r' ∉ s) (t : Text) :
    literal? ('"' :: escape s ++ '"' :: t) = some (s, splice t) := by
  rw [literal?, splice_quoted (not_mem_escape lines)]
  exact literalFrom_escape lines returns _

/-! ## Literals in a row -/

/-- Whether `c` may stand between two literals. -/
def isGap (c : Char) : Bool :=
  c.isWhitespace || c == '\x0b' || c == '\x0c'

/-- Reads adjacent literals: their values put together, and what stands behind the last of them. -/
def adjacentFrom : Reading → Text → Option (Text × Text)
  | reading, [] => if reading = .closed then some ([], []) else none
  | reading, c :: r =>
    if reading = .closed then
      if isGap c then adjacentFrom .closed r
      else if c = '"' then adjacentFrom .plain r
      else some ([], c :: r)
    else
      match step reading c with
      | none => none
      | some (read, next) => (adjacentFrom next r).map fun (v, rest) => (read ++ v, rest)

/-- The value of the adjacent literals that a text starts with, and what stands behind them. -/
def adjacent? (s : Text) : Option (Text × Text) :=
  adjacentFrom .closed (splice s)

/-- A literal is read on its own; the others go on behind the mark that closes it. -/
theorem adjacentFrom_eq_bind (opened : reading ≠ .closed) (s : Text) :
    adjacentFrom reading s = (literalFrom reading s).bind fun (v, t) =>
      (adjacentFrom .closed t).map fun (w, rest) => (v ++ w, rest) := by
  induction s generalizing reading with
  | nil => rw [adjacentFrom, if_neg opened, literalFrom, Option.bind_none]
  | cons c s ih =>
    rw [adjacentFrom, if_neg opened, literalFrom]
    cases step reading c with
    | none => rfl
    | some found =>
      obtain ⟨read, next⟩ := found
      cases next with
      | closed => rfl
      | plain | escape | octal | hex | universal =>
        dsimp only
        rw [ih, Option.map_bind, Option.bind_map]
        · simp only [Function.comp_def, Option.map_map, List.append_assoc]
        · exact Reading.noConfusion

theorem adjacentFrom_quote (s : Text) : adjacentFrom .closed ('"' :: s) = adjacentFrom .plain s := rfl

theorem adjacentFrom_gap {gap : Text} (all : gap.all isGap = true) (s : Text) :
    adjacentFrom .closed (gap ++ s) = adjacentFrom .closed s := by
  induction gap with
  | nil => rfl
  | cons c gap ih =>
    rw [List.all_cons, Bool.and_eq_true] at all
    rw [List.cons_append, adjacentFrom, if_pos rfl, if_pos all.1, ih all.2]

/-! ## The literals of lines -/

/-- A line that a literal can hold. -/
def Unbroken (line : Text) : Prop :=
  '\n' ∉ line ∧ '\r' ∉ line

instance (line : Text) : Decidable (Unbroken line) :=
  inferInstanceAs (Decidable (_ ∧ _))

/-- The literal of a line adds the line and its line break to what is read behind it. -/
theorem adjacentFrom_piece (whole : Unbroken line) (t : Text) :
    adjacentFrom .closed (piece line ++ t) =
      (adjacentFrom .closed t).map fun (w, rest) => (line ++ '\n' :: w, rest) := by
  have text : piece line ++ t = '"' :: (escape line ++ ('\\' :: 'n' :: '"' :: t)) := by
    simp [piece]
  have tail : literalFrom .plain ('\\' :: 'n' :: '"' :: t) = some (['\n'], t) := rfl
  have opened : Reading.plain ≠ .closed := Reading.noConfusion
  rw [text, adjacentFrom_quote, adjacentFrom_eq_bind opened,
    literalFrom_escape_append whole.1 whole.2, tail]
  simp

theorem splice_piece (whole : Unbroken line) (t : Text) :
    splice (piece line ++ t) = piece line ++ splice t := by
  have text (t : Text) : piece line ++ t = '"' :: (escape line ++ ['\\', 'n']) ++ '"' :: t := by
    simp [piece]
  have inside : '\n' ∉ escape line ++ ['\\', 'n'] := by
    simp [not_mem_escape whole.1]
  rw [text, text, splice_quoted inside]

theorem splice_append (plain : '\\' ∉ s) (t : Text) : splice (s ++ t) = s ++ splice t := by
  induction s with
  | nil => rfl
  | cons c s ih =>
    simp only [List.mem_cons, not_or] at plain
    rw [List.cons_append, splice_cons (.inl (Ne.symm plain.1)), ih plain.2, List.cons_append]

/-- Lines as literals, one to a line. -/
def pieces (lines : List Text) : Text :=
  lines.flatMap fun line => "      ".toList ++ piece line ++ ['\n']

theorem adjacentFrom_pieces (whole : ∀ line ∈ lines, Unbroken line) (t : Text) :
    adjacentFrom .closed (splice (pieces lines ++ t)) =
      (adjacentFrom .closed (splice t)).map fun (w, rest) =>
        (lines.flatMap (· ++ ['\n']) ++ w, rest) := by
  induction lines with
  | nil => simp [pieces]
  | cons line lines ih =>
    rw [List.forall_mem_cons] at whole
    have text : pieces (line :: lines) ++ t =
        "      ".toList ++ (piece line ++ (['\n'] ++ (pieces lines ++ t))) := by
      simp [pieces]
    rw [text, splice_append (by decide), splice_piece whole.1, splice_append (by decide),
      adjacentFrom_gap (by decide), adjacentFrom_piece whole.1, adjacentFrom_gap (by decide),
      ih whole.2]
    simp [Function.comp_def]

/-! ## The finder -/

theorem unbroken_script : ∀ line ∈ Finder.script, Unbroken line := by
  unfold Finder.script
  simp only [List.map_cons, List.map_nil]
  repeat rw [String.toList_ofList]
  decide +kernel

/-- What stands in front of the call that formats the script of the finder. -/
def beforeCall : Text :=
  "  /* cyfreeze: package finder */\n".toList ++ "  \x7b\n".toList ++
    "    PyObject *__cyfreeze_script = ".toList

theorem not_mem_beforeCall : '"' ∉ beforeCall := by
  unfold beforeCall
  repeat rw [String.toList_ofList]
  decide

/-- The literals of the finder are the first argument of the call. -/
theorem exists_snippet (moduleObject : Text) : ∃ rest, Finder.snippet moduleObject =
    beforeCall ++ "PyUnicode_FromFormat(".toList ++
      (['\n'] ++ (pieces Finder.script ++ ("      ".toList ++ (',' :: rest)))) := by
  have literals : Finder.literals = pieces Finder.script := rfl
  have call : "    PyObject *__cyfreeze_script = PyUnicode_FromFormat(\n".toList =
      "    PyObject *__cyfreeze_script = ".toList ++ ("PyUnicode_FromFormat(".toList ++ ['\n']) := by
    simp
  have comma : "      ,\n".toList = "      ".toList ++ [',', '\n'] := by
    simp
  unfold Finder.snippet beforeCall
  rw [literals]
  simp only [String.toList_append, call, comma, List.append_assoc, List.cons_append, List.nil_append]
  exact ⟨_, rfl⟩

/-- Escaping is lossless. It is two replacements in a row and goes part by part. Between quotation marks,
an escaped text without line breaks is a literal that reads as the text and ends with the mark behind
the text. The literals of the finder, whatever variable holds the module, read as the lines of the
script, each with a line break. -/
theorem escape_lossless :
    (∀ s, escape s = Text.replace ['"'] ['\\', '"'] (Text.replace ['\\'] ['\\', '\\'] s)) ∧
      (∀ s t, escape (s ++ t) = escape s ++ escape t) ∧
      (∀ s, '\n' ∉ s → '\r' ∉ s → ∀ t,
        literal? ('"' :: escape s ++ '"' :: t) = some (s, splice t)) ∧
      ∀ moduleObject, ∃ front behind rest, '"' ∉ front ∧
        Finder.snippet moduleObject = front ++ "PyUnicode_FromFormat(".toList ++ behind ∧
        adjacent? behind = some (Finder.script.flatMap (· ++ ['\n']), ',' :: rest) := by
  refine ⟨escape_eq_replace, escape_append, fun s => literal?_escape, fun moduleObject => ?_⟩
  obtain ⟨rest, text⟩ := exists_snippet moduleObject
  have comma : splice (',' :: rest) = ',' :: splice rest := splice_cons (.inl (by decide))
  have stop : adjacentFrom .closed (',' :: splice rest) = some ([], ',' :: splice rest) := rfl
  refine ⟨beforeCall, _, splice rest, not_mem_beforeCall, text, ?_⟩
  rw [adjacent?, splice_append (by decide), adjacentFrom_gap (by decide),
    adjacentFrom_pieces unbroken_script, splice_append (by decide), adjacentFrom_gap (by decide),
    comma, stop]
  simp

theorem escape_lossless_quoted :
    '\n' ∉ "a\\\"\\".toList ∧ '\r' ∉ "a\\\"\\".toList ∧
      literal? ('"' :: escape "a\\\"\\".toList ++ '"' :: ", \"b\"".toList) =
        some ("a\\\"\\".toList, ", \"b\"".toList) := by
  have lines : '\n' ∉ "a\\\"\\".toList := by decide
  have returns : '\r' ∉ "a\\\"\\".toList := by decide
  exact ⟨lines, returns, escape_lossless.2.2.1 _ lines returns _⟩

end NativeFreeze.CString
