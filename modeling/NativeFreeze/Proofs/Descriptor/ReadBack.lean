import Mathlib.Data.List.Basic
import NativeFreeze.Descriptor
import NativeFreeze.Proofs.Descriptor.Script

/-!
# Reading a descriptor back

A descriptor's script reads back as its icon, the version of the file and the fields that are set
exactly if the text of each field is verbatim. Whatever the texts, descriptors that differ in one of
them have different scripts.
-/

namespace NativeFreeze

namespace Descriptor

open ResourceScript

/-- The fields that hold a text. -/
inductive Field
  | icon
  | companyName
  | fileDescription
  | internalName
  | originalFilename
  | productName
  | comments
  | legalCopyright
  deriving DecidableEq, Repr

/-- The text of a field. -/
def Field.get (d : Descriptor) : Field → Option Text
  | icon => d.iconPath
  | companyName => d.companyName
  | fileDescription => d.fileDescription
  | internalName => d.internalName
  | originalFilename => d.originalFilename
  | productName => d.productName
  | comments => d.comments
  | legalCopyright => d.legalCopyright

/-- The descriptor with another text in a field. -/
def Field.set (d : Descriptor) (text : Option Text) : Field → Descriptor
  | icon => { d with iconPath := text }
  | companyName => { d with companyName := text }
  | fileDescription => { d with fileDescription := text }
  | internalName => { d with internalName := text }
  | originalFilename => { d with originalFilename := text }
  | productName => { d with productName := text }
  | comments => { d with comments := text }
  | legalCopyright => { d with legalCopyright := text }

/-- The entry of a field, if it is set. -/
def entry (key : String) (value : Option Text) : List (Text × Text) :=
  (value.map (key.toList, ·)).toList

/-- The version of the file and the fields that are set, in the order of their declaration. -/
def entries (d : Descriptor) : List (Text × Text) :=
  ("FileVersion".toList, d.version.dotted) ::
    (entry "CompanyName" d.companyName ++ entry "FileDescription" d.fileDescription ++
      entry "InternalName" d.internalName ++ entry "OriginalFilename" d.originalFilename ++
      entry "ProductName" d.productName ++
      entry "ProductVersion" (d.productVersion.map Version.dotted) ++
      entry "Comments" d.comments ++ entry "LegalCopyright" d.legalCopyright)

/-- The lines of entries. -/
def lines (entries : List (Text × Text)) : Text :=
  entries.flatMap fun (key, value) => valueLine key value

/-- What stands between the icon and the entries. -/
def opening (v : Version) : Text :=
  ("\n" ++
    "1 VERSIONINFO\n" ++
    "FILEVERSION ").toList ++ Text.ofNat v.major.toNat ++
    ',' :: Text.ofNat v.minor.toNat ++ ',' :: Text.ofNat v.patch.toNat ++
  (",0\n" ++
    "BEGIN\n" ++
    "  BLOCK \"StringFileInfo\"\n" ++
    "  BEGIN\n" ++
    "    BLOCK \"040904B0\"\n" ++
    "    BEGIN\n").toList

/-- What stands behind the entries. -/
def closing : Text :=
  ("    END\n" ++
    "  END\n" ++
    "\n" ++
    "  BLOCK \"VarFileInfo\"\n" ++
    "  BEGIN\n" ++
    "    VALUE \"Translation\", 0x409, 1200\n" ++
    "  END\n" ++
    "END\n").toList

variable {v w key : Text} {es : List (Text × Text)}

theorem values_eq (d : Descriptor) : d.values = d.entries := by
  rw [values, List.filterMap_eq_flatMap_toList]
  simp only [List.flatMap_cons, List.flatMap_nil, List.append_nil, entries, entry,
    List.append_assoc]
  rfl

theorem render_eq (d : Descriptor) : d.render =
    ("#include <windows.h>\n" ++ "#include <winver.h>\n" ++ "\n").toList ++
      (d.iconLine ++ (opening d.version ++ (lines d.entries ++ closing))) := by
  unfold render opening closing lines
  simp only [values_eq, List.append_assoc]

/-! ## Descriptors that differ in one text -/

/-- A line that ends with the quotation mark behind a text, if there is one. -/
def line (front : Text) : Option Text → Text
  | some text => front ++ text ++ "\"\n".toList
  | none => []

theorem line_injective (front : Text) : Function.Injective (line front) := by
  have marked (text : Text) : line front (some text) ≠ line front none :=
    List.append_ne_nil_of_right_ne_nil _ (by decide)
  intro v w h
  cases v with
  | none =>
    cases w with
    | none => rfl
    | some w => exact absurd h.symm (marked w)
  | some v =>
    cases w with
    | none => exact absurd h (marked v)
    | some w => exact congrArg some (List.append_cancel_left (List.append_cancel_right h))

theorem iconLine_eq (d : Descriptor) : d.iconLine = line "IDI_ICON1 ICON \"".toList d.iconPath := by
  unfold iconLine line
  cases d.iconPath <;> rfl

theorem lines_cons (key value : Text) (es : List (Text × Text)) :
    lines ((key, value) :: es) = valueLine key value ++ lines es :=
  List.flatMap_cons

theorem lines_append (es fs : List (Text × Text)) : lines (es ++ fs) = lines es ++ lines fs :=
  List.flatMap_append

theorem lines_entry (key : String) (value : Option Text) : lines (entry key value) =
    line ("      VALUE \"".toList ++ key.toList ++ "\", \"".toList) value := by
  cases value with
  | none => rfl
  | some value => exact List.append_nil _

theorem render_set_injective (d : Descriptor) (f : Field) :
    Function.Injective fun text => (f.set d text).render := by
  intro v w h
  simp only [render_eq] at h
  have h := List.append_cancel_left h
  cases f with
  | icon =>
    simp only [iconLine_eq] at h
    exact line_injective _ (List.append_cancel_right h)
  | _ =>
    have h := List.append_cancel_right (List.append_cancel_left (List.append_cancel_left h))
    simp only [Field.set, entries, version, lines_cons, lines_append] at h
    simp only [List.append_cancel_left_eq, List.append_cancel_right_eq, lines_entry] at h
    exact line_injective _ h

/-! ## Reading what is between the texts -/

theorem first_of_isDigit {c : Char} (digit : c.isDigit) : first c = ([], .word [c]) := by
  have other (e : Char) (h : e.isDigit = false) : c ≠ e := by
    rintro rfl
    exact Bool.false_ne_true (h.symm.trans digit)
  simp [first, other '"' rfl, other ',' rfl, other '\n' rfl, other ' ' rfl, other '\t' rfl,
    other '\r' rfl]

theorem run_digits (digits : ∀ c ∈ w, c.isDigit) (u : Text) :
    run (.word u) w = some ([], .word (u ++ w)) := by
  induction w generalizing u with
  | nil => simp [run]
  | cons c w ih =>
    obtain ⟨head, tail⟩ := List.forall_mem_cons.mp digits
    simp [run, State.step, first_of_isDigit head, ih tail]

theorem run_numeral (n : Nat) : run .between (Text.ofNat n) = some ([], .word (Text.ofNat n)) := by
  have digits (c) (mem : c ∈ Text.ofNat n) : c.isDigit :=
    Nat.isDigit_of_mem_toDigits (by decide) (by decide) mem
  cases h : Text.ofNat n with
  | nil => exact absurd h Nat.toDigits_ne_nil
  | cons c w =>
    obtain ⟨head, tail⟩ := List.forall_mem_cons.mp (h ▸ digits)
    simp [run, State.step, first_of_isDigit head, run_digits tail]

theorem run_comma (u : Text) : run (.word u) [','] = some ([.word u, .comma], .between) := rfl

theorem run_comma_numeral (u : Text) (n : Nat) : run (.word u) (',' :: Text.ofNat n) =
    some ([.word u, .comma], .word (Text.ofNat n)) :=
  run_append_eq_some (run_comma u) (run_numeral n)

/-- The tokens between the icon and the entries. -/
def openingTokens (v : Version) : List Token :=
  [.word "1".toList, .word "VERSIONINFO".toList, .word "FILEVERSION".toList,
    .word (Text.ofNat v.major.toNat), .comma, .word (Text.ofNat v.minor.toNat), .comma,
    .word (Text.ofNat v.patch.toNat), .comma, .word "0".toList,
    .word "BEGIN".toList, .word "BLOCK".toList, .text "StringFileInfo".toList,
    .word "BEGIN".toList] ++ stringBlock

theorem run_opening (v : Version) : run .line (opening v) = some (openingTokens v, .line) := by
  have front : run .line ("\n" ++ "1 VERSIONINFO\n" ++ "FILEVERSION ").toList =
      some ([.word "1".toList, .word "VERSIONINFO".toList, .word "FILEVERSION".toList], .between) :=
    rfl
  have back : run .between
      ("0\n" ++ "BEGIN\n" ++ "  BLOCK \"StringFileInfo\"\n" ++ "  BEGIN\n" ++
        "    BLOCK \"040904B0\"\n" ++ "    BEGIN\n").toList =
      some ([.word "0".toList, .word "BEGIN".toList, .word "BLOCK".toList,
        .text "StringFileInfo".toList, .word "BEGIN".toList] ++ stringBlock, .line) := rfl
  have major := run_append_eq_some front (run_numeral v.major.toNat)
  have minor := run_append_eq_some major (run_comma_numeral _ v.minor.toNat)
  have patch := run_append_eq_some minor (run_comma_numeral _ v.patch.toNat)
  have whole := run_append_eq_some patch (run_append_eq_some (run_comma _) back)
  exact whole

/-- What is in front of the value of an entry. -/
theorem run_key (h : Verbatim key) :
    run .line ("      VALUE \"".toList ++ key ++ "\", \"".toList) =
      some ([.word "VALUE".toList, .text key, .comma], .string .plain []) := by
  have front : run .line "      VALUE \"".toList =
      some ([.word "VALUE".toList], .string .plain []) := rfl
  have inside : run (.string .plain []) key = some ([], .string .plain key) := by
    simpa [run] using (run_verbatim h [] []).1
  have behind : run (.string .mark key) ", \"".toList =
      some ([.text key, .comma], .string .plain []) := rfl
  exact run_append_eq_some (run_append_eq_some front inside) ((run_quote key _).trans behind)

theorem run_closing : ∃ ts, run .line (closing ++ ['\n']) =
    some (.word "END".toList :: .word "END".toList :: ts, .line) :=
  ⟨_, rfl⟩

theorem run_preamble : run .line
    ("#include <windows.h>\n" ++ "#include <winver.h>\n" ++ "\n").toList = some ([], .line) := rfl

/-! ## Reading the texts -/

theorem entries?_value (key value : Text) (ts : List Token) :
    entries? ([.word "VALUE".toList, .text key, .comma] ++ .text value :: ts) =
      (entries? ts).map ((key, value) :: ·) := by
  rw [List.cons_append, List.cons_append, List.cons_append, List.nil_append, entries?, if_pos rfl]

/-- The block of the strings reads as its entries exactly if their values are verbatim. -/
theorem entries?_lines_iff (keys : ∀ e ∈ es, Verbatim e.1) :
    (∃ ts last, run .line (lines es ++ (closing ++ ['\n'])) = some (ts, last) ∧
      entries? ts = some es) ↔ ∀ e ∈ es, Verbatim e.2 := by
  induction es with
  | nil =>
    obtain ⟨ts, read⟩ := run_closing
    exact ⟨fun _ => List.forall_mem_nil _, fun _ => ⟨_, _, read, rfl⟩⟩
  | cons e es ih =>
    obtain ⟨key, value⟩ := e
    obtain ⟨head, tail⟩ := List.forall_mem_cons.mp keys
    have opens := run_key head
    rw [lines_cons, List.append_assoc, List.forall_mem_cons, ← ih tail]
    constructor
    · rintro ⟨ts, last, whole, entries⟩
      obtain ⟨x, us, rfl⟩ := exists_run_line_text opens whole
      simp only [entries?_value, Option.map_eq_some_iff, List.cons.injEq, Prod.mk.injEq,
        true_and] at entries
      obtain ⟨es, rest, rfl, rfl⟩ := entries
      obtain ⟨verbatim, behind⟩ := (run_line_text opens).mp whole
      exact ⟨verbatim, us, last, behind, rest⟩
    · rintro ⟨verbatim, ts, last, behind, rest⟩
      refine ⟨_, last, (run_line_text opens).mpr ⟨verbatim, behind⟩, ?_⟩
      rw [entries?_value, rest, Option.map_some]

theorem forall_mem_entry {p : Text × Text → Prop} {key : String} {value : Option Text} :
    (∀ e ∈ entry key value, p e) ↔ ∀ v ∈ value, p (key.toList, v) := by
  cases value <;> simp [entry]

theorem Field.forall {p : Field → Prop} : (∀ f, p f) ↔ p icon ∧ p companyName ∧
    p fileDescription ∧ p internalName ∧ p originalFilename ∧ p productName ∧ p comments ∧
    p legalCopyright := by
  constructor
  · intro h
    exact ⟨h _, h _, h _, h _, h _, h _, h _, h _⟩
  · rintro ⟨_, _, _, _, _, _, _, _⟩ f
    cases f <;> assumption

theorem verbatim_dotted (v : Version) : Verbatim v.dotted := by
  have digits (n : Nat) : ∀ c ∈ Text.ofNat n, c ∉ ['"', '\\', '\n', '\r'] := by
    intro c mem
    have digit : c.isDigit := Nat.isDigit_of_mem_toDigits (by decide) (by decide) mem
    simp only [List.mem_cons, List.not_mem_nil, or_false]
    rintro (rfl | rfl | rfl | rfl) <;> cases digit
  refine verbatim_of_forall ?_
  simp only [Version.dotted, List.forall_mem_append, List.forall_mem_cons]
  exact ⟨⟨digits _, by decide, digits _⟩, by decide, digits _⟩

theorem verbatim_key (d : Descriptor) : ∀ e ∈ d.entries, Verbatim e.1 := by
  simp +decide only [entries, List.forall_mem_cons, List.forall_mem_append, forall_mem_entry,
    implies_true, and_self]

/-- The values of the entries are the texts that are set, but for versions, which are verbatim. -/
theorem forall_field_iff (d : Descriptor) : (∀ f : Field, ∀ v ∈ f.get d, Verbatim v) ↔
    (∀ v ∈ d.iconPath, Verbatim v) ∧ ∀ e ∈ d.entries, Verbatim e.2 := by
  have version : ∀ v ∈ d.productVersion.map Version.dotted, Verbatim v := by
    cases d.productVersion <;> simp [verbatim_dotted]
  simp only [Field.forall, Field.get, entries, List.forall_mem_cons, List.forall_mem_append,
    forall_mem_entry, verbatim_dotted, iff_true_intro version, and_assoc, true_and]

theorem read?_eq_some_iff {s : Text} {icon : Option Text} :
    read? s = some ⟨icon, es⟩ ↔ ∃ ts last block, run .line (s ++ ['\n']) = some (ts, last) ∧
      icon? ts = icon ∧ stringBlock? ts = some block ∧ entries? block = some es := by
  simp only [read?, tokens?, Option.bind_eq_bind, Option.bind_eq_some_iff, Option.map_eq_some_iff,
    Prod.exists, Option.pure_def, Option.some.injEq, Contents.mk.injEq]
  constructor
  · rintro ⟨_, ⟨ts, last, whole, rfl⟩, block, found, _, read, rfl, rfl⟩
    exact ⟨ts, last, block, whole, rfl, found, read⟩
  · rintro ⟨ts, last, block, whole, rfl, found, read⟩
    exact ⟨ts, ⟨ts, last, whole, rfl⟩, block, found, es, read, rfl, rfl⟩

theorem run_render (d : Descriptor) : run .line (d.render ++ ['\n']) =
    run .line (line "IDI_ICON1 ICON \"".toList d.iconPath ++
      (opening d.version ++ (lines d.entries ++ (closing ++ ['\n'])))) := by
  rw [render_eq, iconLine_eq, List.append_assoc, run_append_of run_preamble]
  simp only [List.append_assoc, List.nil_append, Option.map_id']

theorem stringBlock?_openingTokens (v : Version) (ts : List Token) :
    stringBlock? (openingTokens v ++ ts) = some ts := by
  simp [openingTokens, stringBlock, stringBlock?]

theorem stringBlock?_icon (path : Text) (v : Version) (ts : List Token) :
    stringBlock? ([.word "IDI_ICON1".toList, .word "ICON".toList] ++
      .text path :: (openingTokens v ++ ts)) = some ts := by
  simp [stringBlock?, stringBlock, stringBlock?_openingTokens]

/-- The script of a descriptor reads as its icon and its entries exactly if each text is verbatim. -/
theorem read?_render_iff (d : Descriptor) :
    read? d.render = some ⟨d.iconPath, d.entries⟩ ↔ ∀ f : Field, ∀ v ∈ f.get d, Verbatim v := by
  have opens : run .line "IDI_ICON1 ICON \"".toList =
    some ([.word "IDI_ICON1".toList, .word "ICON".toList], .string .plain []) := rfl
  rw [read?_eq_some_iff, forall_field_iff, run_render, ← entries?_lines_iff (verbatim_key d)]
  cases d.iconPath with
  | none =>
    simp only [Option.mem_def, reduceCtorEq, false_implies, implies_true, true_and, line,
      List.nil_append]
    constructor
    · rintro ⟨ts, last, block, whole, -, found, read⟩
      obtain ⟨us, rfl, behind⟩ := exists_of_run_append (run_opening _) whole
      rw [stringBlock?_openingTokens] at found
      obtain rfl := Option.some.inj found
      exact ⟨us, last, behind, read⟩
    · rintro ⟨us, last, behind, read⟩
      exact ⟨_, last, us, run_append_eq_some (run_opening _) behind, rfl,
        stringBlock?_openingTokens _ us, read⟩
  | some icon =>
    simp only [Option.mem_def, Option.some.injEq, forall_eq']
    constructor
    · rintro ⟨ts, last, block, whole, path, found, read⟩
      obtain ⟨x, us, rfl⟩ := exists_run_line_text opens whole
      obtain rfl : x = icon := Option.some.inj path
      obtain ⟨verbatim, rest⟩ := (run_line_text opens).mp whole
      obtain ⟨us, rfl, behind⟩ := exists_of_run_append (run_opening _) rest
      rw [stringBlock?_icon] at found
      obtain rfl := Option.some.inj found
      exact ⟨verbatim, us, last, behind, read⟩
    · rintro ⟨verbatim, us, last, behind, read⟩
      have rest := run_append_eq_some (run_opening d.version) behind
      exact ⟨_, last, us, (run_line_text opens).mpr ⟨verbatim, rest⟩, rfl,
        stringBlock?_icon _ _ us, read⟩

/-- A descriptor's script says what the descriptor holds exactly if each text is verbatim, and two
descriptors that differ in one text never have the same script. -/
theorem reads_back_iff (d : Descriptor) :
    (read? d.render = some ⟨d.iconPath, d.entries⟩ ↔ ∀ f : Field, ∀ v ∈ f.get d, Verbatim v) ∧
      ∀ f : Field, Function.Injective fun text => (f.set d text).render :=
  ⟨read?_render_iff d, render_set_injective d⟩

/-- A company whose name ends its entry and starts one of comments. -/
def overrun : Descriptor :=
  { companyName := some "A\"\n      VALUE \"Comments\", \"B".toList }

/-- The script of `overrun` says what another descriptor holds, which has the same script. -/
theorem not_reads_back_overrun :
    read? overrun.render ≠ some ⟨overrun.iconPath, overrun.entries⟩ ∧
      read? overrun.render = some ⟨none, [("FileVersion".toList, "0.0.0".toList),
        ("CompanyName".toList, "A".toList), ("Comments".toList, "B".toList)]⟩ ∧
      overrun.render =
        render { companyName := some "A".toList, comments := some "B".toList } := by
  decide +kernel

end Descriptor

end NativeFreeze
