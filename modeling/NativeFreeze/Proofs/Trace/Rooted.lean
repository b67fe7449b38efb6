import Mathlib.Data.List.DropRight
import NativeFreeze.Proofs.Layout.Innermost
import NativeFreeze.Proofs.Layout.Spelling
import NativeFreeze.Proofs.Path.Extension
import NativeFreeze.Proofs.Text.Cut
import NativeFreeze.Proofs.Trace.Groups

/-!
# Paths below the install root

What is read of a log starts with the text of the install root, as the host compares texts. That text
may go on: `/opt/pyx` starts with `/opt/py` and does not lie below it. So a path that is read lies below
the root exactly if a component ends where the text of the root ends.
-/

namespace NativeFreeze

namespace Path

variable {root : Path} {s t rest piece : Text} {c : Char}

/-! ## Component by component -/

/-- Every text is cut behind its last separator. -/
theorem exists_last_piece (s : Text) :
    ∃ front last, s = front ++ last ∧ (front = [] ∨ front.getLast? = some '/') ∧ '/' ∉ last := by
  refine ⟨s.rdropWhile (· != '/'), s.rtakeWhile (· != '/'), ?_, ?_, ?_⟩
  · exact List.rdropWhile_append_rtakeWhile.symm
  · by_cases empty : s.rdropWhile (· != '/') = []
    · exact .inl empty
    · right
      have last := List.rdropWhile_last_not (· != '/') s empty
      rw [List.getLast?_eq_getLast_of_ne_nil empty]
      simpa using last
  · intro mem
    simpa using List.mem_rtakeWhile_imp mem

/-- Every text is cut in front of its first separator. -/
theorem exists_first_piece (s : Text) :
    ∃ piece more, s = piece ++ more ∧ '/' ∉ piece ∧ (more = [] ∨ more.head? = some '/') := by
  refine ⟨s.takeWhile (· != '/'), s.dropWhile (· != '/'), ?_, ?_, ?_⟩
  · exact List.takeWhile_append_dropWhile.symm
  · intro mem
    simpa using List.mem_takeWhile_imp mem
  · cases behind : s.dropWhile (· != '/') with
    | nil => exact .inl rfl
    | cons c more =>
      right
      have stops := List.head?_dropWhile_not (· != '/') s
      simpa [behind] using stops

/-- A text whose last piece is a component does not contain the one in which that piece goes on. -/
theorem not_contains_append (letter : c ≠ '/') (full : s ≠ []) (slash : ¬['/'] <:+ s)
    (here : ¬['/', '.'] <:+ s) (t : Text) : ¬Contains ⟨s⟩ ⟨s ++ c :: t⟩ := by
  obtain ⟨front, last, rfl, start, whole⟩ := exists_last_piece s
  obtain ⟨piece, more, rest, single, stop⟩ := exists_first_piece (c :: t)
  have some_last : last ≠ [] := by
    rintro rfl
    rw [List.append_nil] at full slash
    obtain ⟨back, rfl⟩ := List.getLast?_eq_some_iff.mp (start.resolve_left full)
    exact slash (List.suffix_append back _)
  have some_piece : piece ≠ [] := by
    rintro rfl
    rw [List.nil_append] at rest
    simp [← rest, letter] at stop
  have longer : ∃ behind, components ⟨front ++ last ++ c :: t⟩ =
      components ⟨front⟩ ++ component (last ++ piece) :: behind := by
    have busy : isIdle (last ++ piece) = false := by
      obtain ⟨a, as, rfl⟩ := List.exists_cons_of_ne_nil some_last
      obtain ⟨b, bs, rfl⟩ := List.exists_cons_of_ne_nil some_piece
      simp [isIdle]
    have piece_own : components ⟨front ++ (last ++ piece)⟩ =
        components ⟨front⟩ ++ [component (last ++ piece)] :=
      components_append_piece start (by simp [whole, single]) busy
    rw [rest]
    rcases stop with rfl | next
    · exact ⟨[], by simpa using piece_own⟩
    · obtain ⟨more, rfl⟩ := List.head?_eq_some_iff.mp next
      refine ⟨trail more, ?_⟩
      have full : front ++ (last ++ piece) ≠ [] := by simp [some_last]
      rw [← List.append_assoc, List.append_assoc front, components_append full, piece_own,
        List.append_assoc]
      rfl
  obtain ⟨behind, longer⟩ := longer
  unfold Contains
  rw [longer]
  cases idle : isIdle last with
  | true =>
    -- The only idle piece that counts is a dot with nothing in front of it.
    obtain rfl : last = ['.'] := by simpa [isIdle, some_last] using idle
    rcases start with rfl | next
    · intro starts
      have first : Component.here = component ('.' :: piece) := (List.cons_prefix_cons.mp starts).1
      unfold component at first
      split at first <;> cases first
    · obtain ⟨back, rfl⟩ := List.getLast?_eq_some_iff.mp next
      exact absurd ⟨back, by simp⟩ here
  | false =>
    rw [components_append_piece start whole idle]
    intro starts
    have same := (List.cons_prefix_cons.mp ((List.prefix_append_right_inj _).mp starts)).1
    have texts := congrArg Component.text same
    rw [component_text, component_text] at texts
    exact some_piece (List.self_eq_append_right.mp texts)

/-- A path whose text starts with that of the root lies below the root exactly if a component ends
there. -/
theorem contains_append_iff (full : s ≠ []) (t : Text) : Contains ⟨s⟩ ⟨s ++ t⟩ ↔
    t = [] ∨ t.head? = some '/' ∨ ['/'] <:+ s ∨ ['/', '.'] <:+ s := by
  constructor
  · intro below
    cases t with
    | nil => exact .inl rfl
    | cons c t =>
      by_contra none
      simp only [reduceCtorEq, List.head?_cons, Option.some.injEq, false_or, not_or] at none
      exact not_contains_append none.1 full none.2.1 none.2.2 t below
  · rintro (rfl | next | ⟨back, rfl⟩ | ⟨back, rfl⟩)
    · rw [List.append_nil]
      exact List.prefix_rfl
    · obtain ⟨t, rfl⟩ := List.head?_eq_some_iff.mp next
      exact ⟨_, (components_append full t).symm⟩
    · rw [List.append_assoc]
      exact ⟨_, (components_slash back t).symm⟩
    · have root : components ⟨back ++ ['/', '.']⟩ = components ⟨back ++ ['/']⟩ :=
        (components_slash back ['.']).trans (List.append_nil _)
      unfold Contains
      rw [root, List.append_assoc]
      exact ⟨_, (components_slash back ('.' :: t)).symm⟩

end Path

open NativeFreeze.Path

namespace Layout

variable {h : Layout} {root : Path} {start rest : Text}

/-! ## Up to case and separators -/

theorem exists_headOf (root : Path) : ∃ tail, slashed root.text = headOf root ++ tail ∧
    (∀ c ∈ tail, c = '/') ∧ (tail = [] ↔ (slashed root.text).getLast? ≠ some '/') := by
  refine ⟨(slashed root.text).rtakeWhile (· == '/'), ?_, ?_, ?_⟩
  · exact List.rdropWhile_append_rtakeWhile.symm
  · intro c hc
    simpa using List.mem_rtakeWhile_imp hc
  · rw [List.rtakeWhile_eq_nil_iff]
    constructor
    · intro last ends
      obtain ⟨back, text⟩ := List.getLast?_eq_some_iff.mp ends
      simp [text] at last
    · intro other full last
      rw [List.getLast?_eq_getLast_of_ne_nil full] at other
      simp_all

/-- A path whose text starts with a spelling of the root lies below the root exactly if nothing or a
separator is next, or the root ends with one. -/
theorem isSome_segmentsFolded?_iff
    (spelled : Text.lower (slashed start) = Text.lower (slashed root.text)) :
    (segmentsFolded? ⟨start ++ rest⟩ root).isSome = true ↔
      rest = [] ∨ (slashed rest).head? = some '/' ∨ (slashed root.text).getLast? = some '/' := by
  obtain ⟨tail, whole, slashes, ends⟩ := exists_headOf root
  rw [whole] at spelled
  obtain ⟨front, between, parts, fronts, tails⟩ := Text.exists_append_of_lower spelled
  have path : slashed (start ++ rest) = front ++ (between ++ slashed rest) := by
    rw [← List.append_assoc, ← parts]
    exact List.map_append
  have cut (behind : Text) : Sliced (headOf root) (slashed (start ++ rest)) behind ↔
      behind = between ++ slashed rest ∧ (behind = [] ∨ behind.head? = some '/') := by
    constructor
    · rintro ⟨⟨front', made, -, fronts'⟩, next⟩
      refine ⟨?_, next⟩
      rw [path] at made
      have lengths : front.length = front'.length := by
        have same := congrArg List.length (fronts.trans fronts'.symm)
        simpa [Text.lower] using same
      exact ((List.append_inj made lengths).2).symm
    · rintro ⟨rfl, next⟩
      exact ⟨⟨front, path, Text.length_bytes_of_lower fronts, fronts⟩, next⟩
  have found : (segmentsFolded? ⟨start ++ rest⟩ root).isSome = true ↔
      between ++ slashed rest = [] ∨ (between ++ slashed rest).head? = some '/' := by
    rw [Option.isSome_iff_exists]
    constructor
    · rintro ⟨segments, below⟩
      obtain ⟨behind, sliced, -⟩ := segmentsFolded?_eq_some_iff.mp below
      obtain ⟨rfl, next⟩ := (cut behind).mp sliced
      exact next
    · intro next
      exact ⟨_, segmentsFolded?_eq_some_iff.mpr ⟨_, (cut _).mpr ⟨rfl, next⟩, rfl⟩⟩
  rw [found]
  cases tail with
  | nil =>
    obtain rfl : between = [] := List.map_eq_nil_iff.mp tails
    rw [List.nil_append, or_iff_left (ends.mp rfl), slashed, List.map_eq_nil_iff]
  | cons d tail =>
    obtain ⟨d', between, rfl, same, -⟩ := List.map_eq_cons_iff.mp tails
    rw [slashes d List.mem_cons_self] at same
    obtain rfl : d' = '/' := (Text.toLower_eq_iff rfl).mp same
    have closed_end : (slashed root.text).getLast? = some '/' := by
      by_contra other
      exact absurd (ends.mpr other) (List.cons_ne_nil d tail)
    simp [closed_end]

/-- Whether a character stands between two names of a path. -/
def isSeparator (h : Layout) (c : Char) : Bool :=
  c == '/' || (h.caseInsensitive && c == '\\')

/-- In a path that starts with the text of the install root and goes on with `rest`, a component ends
where the text of the root ends. -/
def Parted (h : Layout) (rest : Text) : Prop :=
  rest = [] ∨ rest.head?.any h.isSeparator = true ∨
    h.installRoot.text.getLast?.any h.isSeparator = true ∨
    h.caseInsensitive = false ∧ ['/', '.'] <:+ h.installRoot.text

theorem map_slash_eq_some_iff (folds : h.caseInsensitive = true) (o : Option Char) :
    o.map (fun c => if c = '\\' then '/' else c) = some '/' ↔ o.any h.isSeparator = true := by
  cases o with
  | none => simp
  | some c => by_cases back : c = '\\' <;> simp [isSeparator, folds, back]

theorem any_isSeparator_iff (sensitive : h.caseInsensitive = false) (o : Option Char) :
    o.any h.isSeparator = true ↔ o = some '/' := by
  cases o <;> simp [isSeparator, sensitive]

end Layout

namespace ImportLog

variable {h : Layout} {log line start rest piece : Text} {p : Path}

theorem slashed_lower (s : Text) : slashed (Text.lower s) = Text.lower (slashed s) := by
  simp only [slashed, Text.lower, List.map_map]
  refine List.map_congr_left fun c _ => ?_
  have back : c.toLower = '\\' ↔ c = '\\' := Text.toLower_eq_iff rfl
  simp only [Function.comp_apply, back]
  split
  · rfl
  · rfl

/-- What starts with the text of the install root lies below it exactly if a component ends there. -/
theorem isSome_segmentsBelow?_iff_parted (full : h.installRoot.text ≠ [])
    (spelled : folded h start = folded h h.installRoot.text) (rest : Text) :
    (h.segmentsBelow? ⟨start ++ rest⟩ h.installRoot).isSome = true ↔ h.Parted rest := by
  unfold Layout.Parted
  cases folds : h.caseInsensitive with
  | true =>
    simp only [folded, folds, if_true, slashed_lower] at spelled
    simp only [Layout.segmentsBelow?, folds, if_true, Layout.isSome_segmentsFolded?_iff spelled,
      slashed, List.head?_map, List.getLast?_map, Layout.map_slash_eq_some_iff folds]
    simp
  | false =>
    simp only [folded, folds, Bool.false_eq_true, if_false] at spelled
    rw [spelled, Layout.isSome_segmentsBelow?_iff folds, Layout.any_isSeparator_iff folds,
      Layout.any_isSeparator_iff folds, List.getLast?_eq_some_iff]
    exact (contains_append_iff full rest).trans (by simp [List.IsSuffix, eq_comm])

/-! ## What a line is searched for -/

/-- A character as paths are compared. -/
def foldChar (h : Layout) (c : Char) : Char :=
  if h.caseInsensitive then (if c.toLower = '\\' then '/' else c.toLower) else c

theorem folded_eq_map (h : Layout) (s : Text) : folded h s = s.map (foldChar h) := by
  unfold folded
  cases folds : h.caseInsensitive with
  | true =>
    simp only [if_true, slashed, Text.lower, List.map_map]
    exact List.map_congr_left fun c _ => by simp [foldChar, folds]
  | false =>
    have same : foldChar h = id := funext fun c => by simp [foldChar, folds]
    rw [same, List.map_id]
    rfl

/-- A line is what stands in front of its pieces and then the pieces. As texts are compared, it is cut
where the text of the root occurs. -/
theorem exists_cut_rooted (full : h.installRoot.text ≠ []) (line : Text) : ∃ front,
    front ++ (rooted h line).flatten = line ∧
      Text.cuts (folded h h.installRoot.text) 0 (folded h line) =
        folded h front :: (rooted h line).map (folded h) := by
  have width : (folded h h.installRoot.text).length = h.installRoot.text.length := by
    simp [folded_eq_map]
  have fold : folded h = List.map (foldChar h) := funext (folded_eq_map h)
  have folds : (Text.cutsFrom (fun s => (folded h h.installRoot.text).isPrefixOf (folded h s))
      h.installRoot.text.length 0 line).map (folded h) =
        Text.cuts (folded h h.installRoot.text) 0 (folded h line) := by
    rw [Text.cuts, width]
    simp only [fold]
    exact Text.map_cutsFrom (foldChar h)
      (fun s => (h.installRoot.text.map (foldChar h)).isPrefixOf s) _ 0 line
  obtain ⟨first, others, cut⟩ := List.exists_cons_of_ne_nil
    (Text.cuts_ne_nil (folded h h.installRoot.text) 0 (folded h line))
  obtain ⟨front, pieces, parts, -, -⟩ := List.map_eq_cons_iff.mp (folds.trans cut)
  have rest : rooted h line = pieces := by
    rw [rooted, if_neg (by simpa using full), Text.piecesAt, parts, List.tail_cons]
  refine ⟨front, ?_, ?_⟩
  · rw [rest, ← List.flatten_cons, ← parts, Text.flatten_cutsFrom]
  · rw [← folds, parts, rest, List.map_cons]

/-- As texts are compared, the pieces of a line are those that it has behind its cuts in front of the
root. -/
theorem map_folded_rooted (full : h.installRoot.text ≠ []) (line : Text) :
    (rooted h line).map (folded h) =
      (Text.cuts (folded h h.installRoot.text) 0 (folded h line)).tail := by
  obtain ⟨front, -, cut⟩ := exists_cut_rooted full line
  rw [cut, List.tail_cons]

theorem ne_nil_of_mem_rooted (mem : piece ∈ rooted h line) : h.installRoot.text ≠ [] := by
  intro empty
  simp [rooted, empty] at mem

/-- A piece of a line starts with the text of the root. -/
theorem isPrefix_of_mem_rooted (mem : piece ∈ rooted h line) :
    folded h h.installRoot.text <+: folded h piece := by
  have folds : folded h piece ∈ (rooted h line).map (folded h) := List.mem_map_of_mem mem
  rw [map_folded_rooted (ne_nil_of_mem_rooted mem)] at folds
  exact Text.isPrefix_of_mem_tail folds

/-- What starts with the text of the root has a start that spells it. -/
theorem exists_start (starts : folded h h.installRoot.text <+: folded h piece) :
    ∃ start rest, piece = start ++ rest ∧ folded h start = folded h h.installRoot.text ∧
      start.length = h.installRoot.text.length := by
  obtain ⟨more, whole⟩ := starts
  rw [folded_eq_map h piece] at whole
  obtain ⟨start, rest, rfl, spelled, -⟩ := List.map_eq_append_iff.mp whole.symm
  refine ⟨start, rest, rfl, (folded_eq_map h start).trans spelled, ?_⟩
  have lengths := congrArg List.length spelled
  simpa [folded_eq_map] using lengths

/-- A path that is read of a line starts with the text of the root. -/
theorem exists_start_of_mem_pathsIn (read : p ∈ pathsIn h line) : h.installRoot.text ≠ [] ∧
    ∃ start rest, p.text = start ++ rest ∧ folded h start = folded h h.installRoot.text := by
  obtain ⟨piece, mem, read⟩ := List.mem_filterMap.mp read
  refine ⟨ne_nil_of_mem_rooted mem, ?_⟩
  obtain ⟨text, n, rfl, taken⟩ : ∃ text n, p = ⟨text⟩ ∧
      text = piece.take (h.installRoot.text.length + n) := by
    split at read
    · rename_i text found
      split at read
      · cases read
      · obtain ⟨n, -, taken⟩ := Option.map_eq_some_iff.mp found
        exact ⟨text, n, (Option.some.inj read).symm, taken.symm⟩
    · cases read
  obtain ⟨start, rest, rfl, spelled, width⟩ := exists_start (isPrefix_of_mem_rooted mem)
  exact ⟨start, rest.take n, by rw [taken, ← width, List.take_length_add_append], spelled⟩

theorem mem_parseLines (context ls : List Text) (read : p ∈ parseLines h context ls) :
    h.ffiShim = some p ∨ ∃ line ∈ context ++ ls, p ∈ pathsIn h line := by
  induction ls generalizing context with
  | nil => exact absurd read List.not_mem_nil
  | cons line ls ih =>
    rw [parseLines] at read
    split at read
    · rename_i name _
      rcases List.mem_append.mp read with group | later
      · rcases List.mem_append.mp group with found | shim
        · obtain ⟨l, hl, mem⟩ := List.mem_flatMap.mp (distinct_subset _ found)
          exact .inr ⟨l, List.mem_append_left _ hl, mem⟩
        · split at shim
          · exact .inl (by simpa using shim)
          · exact absurd shim List.not_mem_nil
      · refine (ih [] later).imp_right ?_
        rintro ⟨l, hl, mem⟩
        exact ⟨l, List.mem_append_right _ (List.mem_cons_of_mem line hl), mem⟩
    · refine (ih _ read).imp_right ?_
      rintro ⟨l, hl, mem⟩
      exact ⟨l, by simpa using hl, mem⟩

/-- What a log yields besides the shim starts with the text of the install root, as the host compares
texts. It lies below the root exactly if a component ends where this text ends. -/
theorem below_installRoot_iff (read : p ∈ parse h log) (other : h.ffiShim ≠ some p) :
    ∃ start rest, p.text = start ++ rest ∧ folded h start = folded h h.installRoot.text ∧
      ((h.segmentsBelow? p h.installRoot).isSome = true ↔ h.Parted rest) := by
  obtain ⟨line, -, mem⟩ := (mem_parseLines [] _ read).resolve_left other
  obtain ⟨full, start, rest, text, spelled⟩ := exists_start_of_mem_pathsIn mem
  refine ⟨start, rest, text, spelled, ?_⟩
  rw [← isSome_segmentsBelow?_iff_parted full spelled, ← text]

/-- An installation on Windows. -/
def drive : Layout :=
  .windows ⟨"C:\\Py".toList⟩ "3.9".toList

/-- A log that reports one of its files in another case. -/
def driveLog : Text :=
  "# c:\\\\py\\\\Lib\\\\a.py matches\nimport a # x\n".toList

theorem below_installRoot_iff_drive : ∃ p start rest : Text, ⟨p⟩ ∈ parse drive driveLog ∧
    p = start ++ rest ∧ folded drive start = folded drive drive.installRoot.text ∧
      ((drive.segmentsBelow? ⟨p⟩ drive.installRoot).isSome = true ↔ drive.Parted rest) := by
  have read : (⟨"c:\\py\\Lib\\a.py".toList⟩ : Path) ∈ parse drive driveLog := by decide +kernel
  obtain ⟨start, rest, below⟩ := below_installRoot_iff read (by decide +kernel)
  exact ⟨_, start, rest, read, below⟩

/-- A file beside the install root whose path starts with the text of the root. -/
theorem not_below_installRoot_beside :
    ∃ (h : Layout) (log : Text) (p : Path), p ∈ parse h log ∧ h.ffiShim ≠ some p ∧
      h.segmentsBelow? p h.installRoot = none :=
  ⟨.posix ⟨"/opt/py".toList⟩ "3.11".toList ".so".toList,
    "# /opt/pyx/a.py matches /opt/pyx/a.py\nimport a # x\n".toList, ⟨"/opt/pyx/a.py".toList⟩,
    by decide +kernel⟩

end ImportLog

end NativeFreeze
