import Mathlib.Data.List.TakeWhile
import NativeFreeze.Generated.Registration
import NativeFreeze.Proofs.Generated.CString
import NativeFreeze.Proofs.Text.Lines
import NativeFreeze.Proofs.Text.Replace

/-!
# Where a bootstrap looks for its runtime

The bootstrap of a standalone executable holds the runtime directory in a string literal on a line of
its own. Filling the template goes on within the literal, since values are filled in turn. A directory
name that spells no slot stands there as it was set, and the compiler reads the literal.
-/

namespace NativeFreeze

namespace Bootstrap

/-! ## Filling slots -/

variable {value : Slot → Text} {s t : Text} {c : Char}

/-- A text whose slots are filled, one slot after the other. -/
def fillIn (value : Slot → Text) (code : Text) : Text :=
  Slot.all.foldl (fun code slot => Text.replace slot.spelling (value slot) code) code

theorem fill_eq (value : Slot → Text) : fill value = fillIn value (spelled template) := rfl

/-- The slots that are filled after a slot. -/
def Slot.later (slot : Slot) : List Slot :=
  (Slot.all.dropWhile (· ≠ slot)).tail

theorem mem_all (slot : Slot) : slot ∈ Slot.all := by
  cases slot <;> decide

-- The characters of a literal are slow to list by evaluation; here and below the rewriting spells
-- them out.
theorem spelling_ne_nil (slot : Slot) : slot.spelling ≠ [] := by
  have each : ∀ slot ∈ Slot.all, slot.spelling ≠ [] := by
    unfold Slot.spelling
    repeat rw [String.toList_ofList]
    decide
  exact each slot (mem_all slot)

/-- No slot is spelled inside another one. -/
theorem holds_spelling {slot other : Slot} (ne : other ≠ slot) :
    Text.holds other.spelling slot.spelling = false := by
  have each : ∀ slot ∈ Slot.all, ∀ other ∈ Slot.all, other ≠ slot →
      Text.holds other.spelling slot.spelling = false := by
    unfold Slot.spelling
    repeat rw [String.toList_ofList]
    decide +kernel
  exact each slot (mem_all slot) other (mem_all other) ne

/-- A text that spells no slot. -/
def Slotless (s : Text) : Prop :=
  ∀ slot ∈ Slot.all, Text.holds slot.spelling s = false

instance (s : Text) : Decidable (Slotless s) :=
  inferInstanceAs (Decidable (∀ slot ∈ _, _))

/-- Every slot is spelled with this sign. -/
theorem slotless_of_not_mem (h : '@' ∉ s) : Slotless s := by
  have sign : ∀ slot ∈ Slot.all, '@' ∈ slot.spelling := by
    unfold Slot.spelling
    repeat rw [String.toList_ofList]
    decide
  intro slot mem
  exact Text.holds_eq_false (sign slot mem) h

/-- A character that is in no slot. -/
def Apart (c : Char) : Prop :=
  ∀ slot ∈ Slot.all, c ∉ slot.spelling

instance (c : Char) : Decidable (Apart c) :=
  inferInstanceAs (Decidable (∀ slot ∈ _, _))

theorem apart_marks : Apart '\n' ∧ Apart '"' ∧ Apart '(' ∧ Apart ')' := by
  unfold Apart Slot.spelling
  repeat rw [String.toList_ofList]
  decide +kernel

theorem Slotless.append (hs : Slotless s) (apart : Apart c) (ht : Slotless t) :
    Slotless (s ++ c :: t) := by
  intro slot mem
  rw [Text.holds_append_cons (apart slot mem) (spelling_ne_nil slot), hs slot mem, ht slot mem]
  rfl

theorem foldl_replace_append_bar {slots : List Slot}
    (bars : ∀ slot ∈ slots, Text.Bars slot.spelling t) (s rest : Text) :
    slots.foldl (fun code slot => Text.replace slot.spelling (value slot) code) (s ++ t ++ rest) =
      slots.foldl (fun code slot => Text.replace slot.spelling (value slot) code) s ++ t ++
        slots.foldl (fun code slot => Text.replace slot.spelling (value slot) code) rest := by
  induction slots generalizing s rest with
  | nil => rfl
  | cons slot slots ih =>
    rw [List.forall_mem_cons] at bars
    rw [List.foldl_cons, Text.replace_append_bar bars.1 (spelling_ne_nil slot), ih bars.2]
    rfl

theorem foldl_replace_eq_self {slots : List Slot}
    (h : ∀ slot ∈ slots, Text.holds slot.spelling s = false) :
    slots.foldl (fun code slot => Text.replace slot.spelling (value slot) code) s = s := by
  induction slots with
  | nil => rfl
  | cons slot slots ih =>
    rw [List.foldl_cons, Text.replace_eq_self (h slot List.mem_cons_self)]
    exact ih fun slot hs => h slot (List.mem_cons_of_mem _ hs)

/-- On both sides of a bar, filling goes on on its own. -/
theorem fillIn_append_bar (bars : ∀ slot ∈ Slot.all, Text.Bars slot.spelling t) (s rest : Text) :
    fillIn value (s ++ t ++ rest) = fillIn value s ++ t ++ fillIn value rest :=
  foldl_replace_append_bar bars s rest

/-- On both sides of a character that is in no slot, filling goes on on its own. -/
theorem fillIn_append_cons (apart : Apart c) (s t : Text) :
    fillIn value (s ++ c :: t) = fillIn value s ++ c :: fillIn value t := by
  have bars : ∀ slot ∈ Slot.all, Text.Bars slot.spelling [c] :=
    fun slot mem => Text.bars_singleton (apart slot mem)
  simpa using fillIn_append_bar bars s t

theorem fillIn_eq_self (h : Slotless s) : fillIn value s = s :=
  foldl_replace_eq_self h

/-- A slot is filled with its value, if this holds no slot that is filled later. -/
theorem fillIn_spelling (slot : Slot)
    (h : ∀ x ∈ slot.later, Text.holds x.spelling (value slot) = false) :
    fillIn value slot.spelling = value slot := by
  obtain ⟨earlier, order, others⟩ : ∃ earlier, Slot.all = earlier ++ slot :: slot.later ∧
      ∀ x ∈ earlier, x ≠ slot := by
    refine ⟨Slot.all.takeWhile (· ≠ slot), ?_⟩
    cases slot <;> decide
  have apart : ∀ x ∈ earlier, Text.holds x.spelling slot.spelling = false :=
    fun x hx => holds_spelling (others x hx)
  rw [fillIn, order, List.foldl_append, foldl_replace_eq_self apart, List.foldl_cons,
    Text.replace_self (spelling_ne_nil slot), foldl_replace_eq_self h]

/-! ## The literal -/

/-- How the line of the runtime directory starts. -/
def literalHead : Text :=
  "static const wchar_t CYFREEZE_RUNTIME_DIR[] = L\"".toList

/-- The runtime directory that a compiler reads in a bootstrap. -/
def runtimeDir? (code : Text) : Option Text :=
  (Text.after? literalHead (Text.join ['\n'] ((Text.split '\n' code).dropWhile fun line =>
    (Text.after? literalHead line).isNone))).bind CString.value?

/-- No line starts as that of the runtime directory does. -/
def Quiet (s : Text) : Prop :=
  ∀ line ∈ Text.split '\n' s, Text.after? literalHead line = none

instance (s : Text) : Decidable (Quiet s) :=
  inferInstanceAs (Decidable (∀ line ∈ _, _))

/-- Lines that disturb neither the filling nor the search for the literal. -/
structure Harmless (s : Text) : Prop where
  slotless : Slotless s
  quiet : Quiet s

theorem Harmless.append (hs : Harmless s) (ht : Harmless t) : Harmless (s ++ '\n' :: t) := by
  refine ⟨hs.slotless.append apart_marks.1 ht.slotless, fun line mem => ?_⟩
  rw [Text.split_append, List.mem_append] at mem
  exact mem.elim (hs.quiet line) (ht.quiet line)

theorem harmless_of_head (slotless : Slotless s) (line : '\n' ∉ s) (head : s.head? ≠ some 's') :
    Harmless s := by
  refine ⟨slotless, fun l mem => ?_⟩
  rw [Text.split_eq_singleton line, List.mem_singleton] at mem
  subst mem
  cases l with
  | nil => rfl
  | cons c r =>
    have other : 's' ≠ c := fun h => head (by rw [← h]; rfl)
    have first : literalHead = 's' :: literalHead.tail := by
      unfold literalHead
      rw [String.toList_ofList]
      rfl
    rw [first, Text.after?, if_neg other]

/-- What holds of the empty text, and of two texts with a line break between them, holds of lines. -/
theorem of_lines {α : Type} {P : Text → Prop} {line : α → Text} {xs : List α} (empty : P [])
    (append : ∀ {s t : Text}, P s → P t → P (s ++ '\n' :: t)) (each : ∀ x ∈ xs, P (line x)) :
    P (xs.flatMap fun x => line x ++ ['\n']) := by
  induction xs with
  | nil => exact empty
  | cons x xs ih =>
    rw [List.forall_mem_cons] at each
    rw [List.flatMap_cons, List.append_assoc]
    exact append each.1 (ih each.2)

theorem harmless_nil : Harmless [] :=
  harmless_of_head (slotless_of_not_mem List.not_mem_nil) List.not_mem_nil nofun

/-- The literal is read behind lines of other kinds. -/
theorem runtimeDir?_append (quiet : Quiet s) (t : Text) :
    runtimeDir? (s ++ '\n' :: (literalHead ++ t)) = CString.value? t := by
  obtain ⟨front, last, first, rest, head, ht, joined⟩ := Text.split_append_eq '\n' literalHead t
  have single : Text.split '\n' literalHead = [literalHead] := by
    apply Text.split_eq_singleton
    unfold literalHead
    rw [String.toList_ofList]
    decide
  obtain ⟨rfl, rfl⟩ : front = [] ∧ literalHead = last := by
    have whole : [literalHead] = front ++ [last] := single.symm.trans head
    cases front with
    | nil => exact ⟨rfl, (List.cons.inj whole).1⟩
    | cons line front => simp at whole
  have found : Text.after? literalHead (literalHead ++ first) = some first :=
    Text.after?_eq_some_iff.mpr rfl
  have skipped : (Text.split '\n' s).dropWhile
      (fun line => (Text.after? literalHead line).isNone) = [] :=
    List.dropWhile_eq_nil_iff.mpr fun line mem => by simp [quiet line mem]
  have lines : (Text.split '\n' (s ++ '\n' :: (literalHead ++ t))).dropWhile
      (fun line => (Text.after? literalHead line).isNone) =
        Text.split '\n' (literalHead ++ t) := by
    rw [Text.split_append, List.dropWhile_append, skipped, joined]
    simp [found]
  have whole : Text.after? literalHead (literalHead ++ t) = some t :=
    Text.after?_eq_some_iff.mpr rfl
  rw [runtimeDir?, lines, Text.join_split, whole, Option.bind_some]

/-! ## The template -/

/-- The text of the template's piece at an index. -/
def pieceText (n : Nat) : Text :=
  spelled ((template.drop n).take 1)

/-- The lines in front of the declarations. -/
def opening : Text :=
  (pieceText 0).dropLast

/-- The lines between the declarations and the table. -/
def middle : Text :=
  (pieceText 2).tail.dropLast

/-- The lines between the table and the runtime directory. -/
def closing : Text :=
  "    \x7bNULL, NULL\x7d\n\x7d;\n".toList

/-- The lines behind that of the runtime directory. -/
def remainder : Text :=
  (spelled (template.drop 6)).drop 3

theorem opening_fixed : pieceText 0 = opening ++ ['\n'] ∧ Harmless opening := by
  obtain ⟨whole, sign, quiet⟩ :
      pieceText 0 = opening ++ ['\n'] ∧ '@' ∉ opening ∧ Quiet opening := by
    unfold Quiet opening pieceText literalHead
    simp only [template, spelled, List.drop_zero, List.take_succ_cons, List.take_zero,
      List.flatMap_cons, List.flatMap_nil, String.toList_append]
    repeat rw [String.toList_ofList]
    decide +kernel
  exact ⟨whole, slotless_of_not_mem sign, quiet⟩

theorem middle_fixed : pieceText 2 = '\n' :: middle ++ ['\n'] ∧ Harmless middle := by
  obtain ⟨whole, sign, quiet⟩ :
      pieceText 2 = '\n' :: middle ++ ['\n'] ∧ '@' ∉ middle ∧ Quiet middle := by
    unfold Quiet middle pieceText literalHead
    simp only [template, spelled, List.drop_succ_cons, List.drop_zero, List.take_succ_cons,
      List.take_zero, List.flatMap_cons, List.flatMap_nil, String.toList_append]
    repeat rw [String.toList_ofList]
    decide +kernel
  exact ⟨whole, slotless_of_not_mem sign, quiet⟩

theorem closing_fixed : pieceText 4 = '\n' :: closing ++ '\n' :: literalHead ∧ Harmless closing := by
  obtain ⟨whole, sign, quiet⟩ :
      pieceText 4 = '\n' :: closing ++ '\n' :: literalHead ∧ '@' ∉ closing ∧ Quiet closing := by
    unfold Quiet closing pieceText literalHead
    simp only [template, spelled, List.drop_succ_cons, List.drop_zero, List.take_succ_cons,
      List.take_zero, List.flatMap_cons, List.flatMap_nil, String.toList_append]
    repeat rw [String.toList_ofList]
    decide +kernel
  exact ⟨whole, slotless_of_not_mem sign, quiet⟩

theorem literalHead_append (t : Text) :
    literalHead ++ t = literalHead.dropLast ++ '"' :: t := by
  have head : literalHead = literalHead.dropLast ++ ['"'] := by
    unfold literalHead
    rw [String.toList_ofList]
    rfl
  exact (congrArg (· ++ t) head).trans (List.append_assoc _ _ t)

theorem spelled_append (xs ys : List Piece) : spelled (xs ++ ys) = spelled xs ++ spelled ys :=
  List.flatMap_append

theorem spelled_slot (slot : Slot) (ps : List Piece) :
    spelled (.slot slot :: ps) = slot.spelling ++ spelled ps := rfl

theorem spelled_template : spelled template =
    opening ++ '\n' :: (Slot.declarations.spelling ++ '\n' :: (middle ++ '\n' ::
      (Slot.table.spelling ++ '\n' :: (closing ++ '\n' ::
        (literalHead ++ (Slot.runtimeDir.spelling ++ '"' :: ';' :: '\n' :: remainder)))))) := by
  have last : spelled (template.drop 6) = ['"', ';', '\n'] ++ remainder := by
    have start : (spelled (template.drop 6)).take 3 = ['"', ';', '\n'] := by
      simp only [template, spelled, List.drop_succ_cons, List.drop_zero, List.flatMap_cons,
        String.toList_append, List.append_assoc]
      rw [String.toList_ofList]
      rfl
    rw [remainder, ← start, List.take_append_drop]
  have pieces : template = template.take 1 ++ .slot .declarations ::
      ((template.drop 2).take 1 ++ .slot .table ::
        ((template.drop 4).take 1 ++ .slot .runtimeDir :: template.drop 6)) := rfl
  have texts : spelled template = pieceText 0 ++ (Slot.declarations.spelling ++ (pieceText 2 ++
      (Slot.table.spelling ++ (pieceText 4 ++ (Slot.runtimeDir.spelling ++
        spelled (template.drop 6)))))) := by
    refine (congrArg spelled pieces).trans ?_
    simp only [spelled_append, spelled_slot]
    rfl
  rw [texts, opening_fixed.1, middle_fixed.1, closing_fixed.1, last]
  simp only [List.append_assoc, List.cons_append, List.nil_append]

/-- What is read of the runtime directory, when the registered modules disturb no line. -/
theorem runtimeDir?_fill {R : Text} (declarations : Harmless (value .declarations))
    (table : Harmless (value .table)) (dir : fillIn value Slot.runtimeDir.spelling = R) :
    runtimeDir? (fill value) =
      CString.value? (R ++ '"' :: ';' :: '\n' :: fillIn value remainder) := by
  have filled : fill value =
      (opening ++ '\n' :: (value .declarations ++ '\n' :: (middle ++ '\n' ::
        (value .table ++ '\n' :: closing)))) ++ '\n' ::
          (literalHead ++ (R ++ '"' :: ';' :: '\n' :: fillIn value remainder)) := by
    have head : Slotless literalHead.dropLast := by
      apply slotless_of_not_mem
      unfold literalHead
      rw [String.toList_ofList]
      decide
    obtain ⟨newline, quote, -⟩ := apart_marks
    have rest : fillIn value (';' :: '\n' :: remainder) = ';' :: '\n' :: fillIn value remainder :=
      (fillIn_append_cons newline [';'] remainder).trans
        (congrArg (· ++ '\n' :: fillIn value remainder)
          (fillIn_eq_self (slotless_of_not_mem (by decide))))
    rw [fill_eq, spelled_template, literalHead_append, literalHead_append]
    simp only [fillIn_append_cons newline, fillIn_append_cons quote, dir, rest,
      fillIn_eq_self head, fillIn_eq_self opening_fixed.2.slotless,
      fillIn_eq_self middle_fixed.2.slotless, fillIn_eq_self closing_fixed.2.slotless]
    rw [fillIn_spelling .declarations fun x _ => declarations.slotless x (mem_all x),
      fillIn_spelling .table fun x _ => table.slotless x (mem_all x)]
    simp only [List.append_assoc, List.cons_append]
  rw [filled]
  exact runtimeDir?_append (opening_fixed.2.append (declarations.append (middle_fixed.2.append
    (table.append closing_fixed.2)))).quiet _

/-! ## The bootstrap of a registration -/

/-- A name that neither breaks a line nor spells a slot. -/
structure Orderly (name : Text) : Prop where
  newline : '\n' ∉ name
  slotless : Slotless name

instance (name : Text) : Decidable (Orderly name) :=
  decidable_of_iff ('\n' ∉ name ∧ Slotless name) ⟨fun h => ⟨h.1, h.2⟩, fun h => ⟨h.1, h.2⟩⟩

/-- The line that declares the init function of a module. -/
def declarationLine (m : RegisteredModule) : Text :=
  "PyMODINIT_FUNC CYFREEZE_MODINIT".toList ++ '(' :: (m.symbol ++ ')' :: " (void);".toList)

/-- The line of a module in the table. -/
def tableRow (m : RegisteredModule) : Text :=
  "    \x7b".toList ++ '"' :: (m.name ++ '"' :: (", CYFREEZE_MODINIT".toList ++ '(' ::
    (m.symbol ++ ')' :: "\x7d,".toList)))

theorem declarations_eq (r : Registration) :
    r.declarations = r.registered.flatMap fun m => declarationLine m ++ ['\n'] := by
  have line (m : RegisteredModule) :
      "PyMODINIT_FUNC CYFREEZE_MODINIT(".toList ++ m.symbol ++ ") (void);\n".toList =
        declarationLine m ++ ['\n'] := by
    unfold declarationLine
    simp
  simp only [Registration.declarations, line]

theorem table_eq (r : Registration) :
    r.table = r.registered.flatMap fun m => tableRow m ++ ['\n'] := by
  have line (m : RegisteredModule) :
      "    \x7b\"".toList ++ m.name ++ "\", CYFREEZE_MODINIT(".toList ++ m.symbol ++ ")\x7d,\n".toList =
        tableRow m ++ ['\n'] := by
    unfold tableRow
    simp
  simp only [Registration.table, line]

theorem slotless_declarationLine {m : RegisteredModule} (symbol : Slotless m.symbol) :
    Slotless (declarationLine m) := by
  obtain ⟨-, -, opening, closing⟩ := apart_marks
  have head := slotless_of_not_mem (s := "PyMODINIT_FUNC CYFREEZE_MODINIT".toList) (by decide)
  have last := slotless_of_not_mem (s := " (void);".toList) (by decide)
  exact head.append opening (symbol.append closing last)

theorem slotless_tableRow {m : RegisteredModule} (name : Slotless m.name)
    (symbol : Slotless m.symbol) : Slotless (tableRow m) := by
  obtain ⟨-, quote, opening, closing⟩ := apart_marks
  have head := slotless_of_not_mem (s := "    \x7b".toList) (by decide)
  have inner := slotless_of_not_mem (s := ", CYFREEZE_MODINIT".toList) (by decide)
  have last := slotless_of_not_mem (s := "\x7d,".toList) (by decide)
  exact head.append quote (name.append quote
    (inner.append opening (symbol.append closing last)))

section Registered
variable {r : Registration} (orderly : ∀ m ∈ r.registered, Orderly m.name ∧ Orderly m.symbol)
include orderly

theorem harmless_declarations : Harmless r.declarations := by
  rw [declarations_eq]
  refine of_lines harmless_nil Harmless.append fun m hm => ?_
  obtain ⟨-, symbol⟩ := orderly m hm
  apply harmless_of_head (slotless_declarationLine symbol.slotless)
  · unfold declarationLine
    simp [symbol.newline]
  · unfold declarationLine
    nofun

theorem harmless_table : Harmless r.table := by
  rw [table_eq]
  refine of_lines harmless_nil Harmless.append fun m hm => ?_
  obtain ⟨name, symbol⟩ := orderly m hm
  apply harmless_of_head (slotless_tableRow name.slotless symbol.slotless)
  · unfold tableRow
    simp [name.newline, symbol.newline]
  · unfold tableRow
    nofun

/-- A compiler reads a literal with the runtime directory, if this spells no slot. -/
theorem runtimeDir?_render (slots : ∀ slot ∈ Slot.runtimeDir.later,
    Text.holds slot.spelling (r.value .runtimeDir) = false) :
    runtimeDir? r.render =
      CString.value? (r.value .runtimeDir ++ '"' :: ';' :: '\n' :: fillIn r.value remainder) :=
  runtimeDir?_fill (harmless_declarations orderly) (harmless_table orderly)
    (fillIn_spelling .runtimeDir slots)

end Registered

end Bootstrap

/-- A source takes a bootstrap if it has none, and has it at its end then. -/
theorem Registration.append_eq_ok_iff {r : Registration} {code out : Text} {file : Path} :
    r.append code file = .ok out ↔
      Text.holds Bootstrap.marker code = false ∧ out = code ++ "\n\n\n".toList ++ r.render := by
  rw [append]
  by_cases marked : Text.holds Bootstrap.marker code = true
  · simp [marked]
  · simp [marked, eq_comm]

end NativeFreeze
