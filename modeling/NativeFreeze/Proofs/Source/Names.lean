import Mathlib.Data.List.Flatten
import NativeFreeze.Proofs.Path.Extension
import NativeFreeze.Proofs.Source

/-!
# Which names are well formed

A qualified name joins the segments of a path by dots. It is well formed if each segment is: a name
does not change the dots that a file or a folder already has, an upward step counts as a segment, and
where only initialisers are named nothing is left of the name. The last segment is the stem of the
file, as long as that stem does not start with a dot.
-/

namespace NativeFreeze

open Text

variable {p : Path} {s : Text} {segs : List Text}

/-! ## Dots -/

/-- A dotted name: it is not empty, no dot stands at its start or end, and no segment between dots is
empty. -/
structure IsDotted (s : Text) : Prop where
  nonempty : s ≠ []
  start : s.head? ≠ some '.'
  finish : s.getLast? ≠ some '.'
  segment : [] ∉ split '.' s

theorem isDotted_iff : IsDotted s ↔ [] ∉ split '.' s := by
  refine ⟨IsDotted.segment, fun h => ⟨?_, ?_, ?_, h⟩⟩
  · rintro rfl
    exact h (List.mem_singleton_self [])
  · intro start
    obtain ⟨rest, rfl⟩ := List.head?_eq_some_iff.mp start
    exact h (List.mem_cons_self ..)
  · intro finish
    obtain ⟨front, rfl⟩ := List.getLast?_eq_some_iff.mp finish
    rw [split_append] at h
    exact h (List.mem_append_right _ (List.mem_singleton_self []))

theorem isDotted_join_iff : IsDotted (join ['.'] segs) ↔ segs ≠ [] ∧ ∀ s ∈ segs, IsDotted s := by
  by_cases some : segs = []
  · subst some
    simp [isDotted_iff, join, split, splitOn]
  · simp [isDotted_iff, split_join some, some]

/-- The names of a source are dotted names exactly if the segments of its path are, and one of them
is not that of an initialiser. -/
theorem isDotted_names_iff (p : Path) (home : Option Path) :
    IsDotted (NamedSource.of (.resolve p home)).name ∧
        IsDotted (NamedSource.of (.resolve p home)).fullName ↔
      (∃ s ∈ segments p, s ≠ initSegment) ∧ ∀ s ∈ segments p, IsDotted s := by
  have name : (NamedSource.of (.resolve p home)).name = moduleName p := rfl
  have full : (NamedSource.of (.resolve p home)).fullName = fullName p := rfl
  rw [name, full, moduleName, fullName, isDotted_join_iff, isDotted_join_iff]
  constructor
  · rintro ⟨⟨some, -⟩, -, all⟩
    obtain ⟨s, hs⟩ := List.exists_mem_of_ne_nil _ some
    obtain ⟨inside, other⟩ := List.mem_filter.mp hs
    exact ⟨⟨s, inside, by simpa using other⟩, all⟩
  · rintro ⟨⟨s, inside, other⟩, all⟩
    have kept : s ∈ (segments p).filter (· != initSegment) := by
      apply List.mem_filter.mpr
      exact ⟨inside, by simpa using other⟩
    refine ⟨⟨List.ne_nil_of_mem kept, ?_⟩, List.ne_nil_of_mem inside, all⟩
    intro t ht
    exact all t (List.mem_of_mem_filter ht)

/-- A script above the directory: the step is taken for a segment. -/
theorem not_isDotted_upward :
    SourceKind.ofPath? ⟨"../m.py".toList⟩ = some .script ∧
      (NamedSource.of (.resolve ⟨"../m.py".toList⟩ none)).name = "...m".toList ∧
      ¬ IsDotted (NamedSource.of (.resolve ⟨"../m.py".toList⟩ none)).name ∧
      ¬ IsDotted (NamedSource.of (.resolve ⟨"../m.py".toList⟩ none)).fullName := by
  simp only [isDotted_iff]
  decide

/-! ## Joined segments -/

namespace Text

theorem length_join (sep : Char) (segs : List Text) :
    (join [sep] segs).length = (segs.flatMap (sep :: ·)).length - 1 := by
  cases segs with
  | nil => rfl
  | cons s segs => simp [join_cons]

/-- Leaving a nonempty segment out shortens the name. -/
theorem not_mem_of_join_filter {w : Text} (full : w ≠ [])
    (h : join ['.'] (segs.filter (· != w)) = join ['.'] segs) : w ∉ segs := by
  intro inside
  obtain ⟨front, rest, rfl⟩ := List.append_of_mem inside
  have size (l : List Text) : ((l.filter (· != w)).flatMap ('.' :: ·)).length ≤
      (l.flatMap ('.' :: ·)).length :=
    (List.filter_sublist.flatMap _).length_le
  have front_size := size front
  have rest_size := size rest
  have long := List.length_pos_iff.mpr full
  have gone : (w :: rest).filter (· != w) = rest.filter (· != w) := by simp
  have same := congrArg List.length h
  rw [length_join, length_join, List.filter_append, gone] at same
  simp only [List.flatMap_append, List.flatMap_cons, List.length_append, List.length_cons] at same
  omega

/-- A name without some word is the whole name exactly if the word is no segment. -/
theorem join_filter_eq_iff {w : Text} (full : w ≠ []) :
    join ['.'] (segs.filter (· != w)) = join ['.'] segs ↔ w ∉ segs := by
  refine ⟨not_mem_of_join_filter full, fun h => ?_⟩
  have all : segs.filter (· != w) = segs := by
    apply List.filter_eq_self.mpr
    intro s hs
    simpa using ne_of_mem_of_not_mem hs h
  rw [all]

/-- A word without dots that a name ends in is the end of its last segment. -/
theorem endsWith_join {w last : Text} (dot : '.' ∉ w) (front : List Text) :
    endsWith w (join ['.'] (front ++ [last])) = endsWith w last := by
  rw [Bool.eq_iff_iff, endsWith, endsWith, List.isSuffixOf_iff_suffix, List.isSuffixOf_iff_suffix,
    join_concat]
  constructor
  · intro h
    rcases List.suffix_or_suffix_of_suffix h (List.suffix_append _ last) with inside | ⟨spare, hw⟩
    · exact inside
    · obtain ⟨more, whole⟩ := h
      rw [← hw, ← List.append_assoc, List.append_left_inj] at whole
      rcases List.eq_nil_or_concat spare with rfl | ⟨spare, c, rfl⟩
      · exact ⟨[], hw.symm⟩
      -- The dot in front of the last segment would be in the word.
      rcases List.eq_nil_or_concat front with rfl | ⟨front, s, rfl⟩
      · simp at whole
      · have tail : c = '.' := by
          simpa [← List.append_assoc] using congrArg List.getLast? whole
        exact absurd (by simp [← hw, tail]) dot
  · intro h
    exact h.trans (List.suffix_append _ last)

/-- The pieces of a joined name make it up again. -/
theorem join_flatMap_split (segs : List Text) :
    join ['.'] (segs.flatMap (split '.')) = join ['.'] segs := by
  by_cases some : segs = []
  · rw [some]
    rfl
  · rw [← split_join some, join_split]

end Text

/-! ## The leaf of a path -/

/-- The separators of either kind. -/
def separates (c : Char) : Bool :=
  c == '/' || c == '\\'

/-- The pieces between separators, without those that are skipped. -/
def busyPieces (s : Text) : List Text :=
  (splitOn separates s).filter fun s => !s.isEmpty && s != ['.']

/-- The stem of the last component of a path, with separators of either kind. -/
def leafStem? (p : Path) : Option Text :=
  (busyPieces p.text).getLast?.map fun leaf => (Path.cutExtension leaf).1

theorem segments_eq (p : Path) : segments p = busyPieces (p.withSuffix []).text := rfl

theorem busyPieces_append (s t : Text) :
    busyPieces (s ++ '/' :: t) = busyPieces s ++ busyPieces t := by
  rw [busyPieces, splitOn_append (by decide), List.filter_append]
  rfl

theorem getLast?_busyPieces {head last : Text} {pieces : List Text}
    (front : head = [] ∨ head.getLast? = some '/') (split : splitOn separates s = pieces ++ [last])
    (busy : Path.isIdle last = false) : (busyPieces (head ++ s)).getLast? = some last := by
  have kept : (busyPieces s).getLast? = some last := by
    have counts : [last].filter (fun s => !s.isEmpty && s != ['.']) = [last] := by
      simpa [Path.isIdle] using busy
    rw [busyPieces, split, List.filter_append, counts, List.getLast?_concat]
  rcases front with rfl | slash
  · exact kept
  · obtain ⟨back, rfl⟩ := List.getLast?_eq_some_iff.mp slash
    rw [List.append_assoc, List.singleton_append, busyPieces_append, List.getLast?_append, kept,
      Option.some_or]

theorem busyPieces_append_idle {pieces : List Text}
    (idle : ∀ piece ∈ pieces, Path.isIdle piece = true) (s : Text) :
    busyPieces (s ++ pieces.flatMap ('/' :: ·)) = busyPieces s := by
  induction pieces generalizing s with
  | nil => simp
  | cons piece pieces ih =>
    rw [List.forall_mem_cons] at idle
    have nothing : busyPieces piece = [] := by
      rcases (by simpa [Path.isIdle] using idle.1 : piece = [] ∨ piece = ['.']) with rfl | rfl <;> rfl
    rw [List.flatMap_cons, ← List.append_assoc, ih idle.2, busyPieces_append, nothing,
      List.append_nil]

/-- A known extension is a plain name behind a dot. -/
theorem exists_ext_of_known (known : (SourceKind.ofPath? p).isSome = true) :
    ∃ ext, p.suffix = '.' :: ext ∧ ext ≠ [] ∧ ∀ c ∈ ext, c ≠ '.' ∧ c ≠ '/' ∧ c ≠ '\\' := by
  obtain ⟨kind, found⟩ := Option.isSome_iff_exists.mp known
  have accepted := List.find?_some found
  have listed : p.suffix ∈ kind.suffixes := by simpa [SourceKind.accepts] using accepted
  have all : kind.suffixes.all (fun s => s.head? == some '.' && s.tail != [] &&
      s.tail.all fun c => c != '.' && c != '/' && c != '\\') = true := by
    cases kind <;> decide
  obtain ⟨⟨dot, full⟩, plain⟩ := by simpa using List.all_eq_true.mp all _ listed
  obtain ⟨ext, h⟩ := List.head?_eq_some_iff.mp dot
  rw [h] at full plain
  exact ⟨ext, h, full, by simpa [and_assoc] using plain⟩

/-- A name whose only dot comes first is all stem. -/
theorem cutExtension_hidden {ext : Text} (dot : '.' ∉ ext) :
    Path.cutExtension ('.' :: ext) = ('.' :: ext, none) := by
  have cut : cutAt? '.' ('.' :: ext).reverse = some (ext.reverse, []) := by
    rw [List.reverse_cons]
    exact cutAt?_append (by simpa using dot) []
  rw [Path.cutExtension, cut]
  rfl

/-- The last component of a path, cut at its extension: what is before that is the last segment, unless
it is skipped. -/
theorem exists_leaf (known : (SourceKind.ofPath? p).isSome = true) : ∃ last ext, '.' ∉ ext ∧
    leafStem? p = some (Path.cutExtension (last ++ '.' :: ext)).1 ∧
    (Path.isIdle last = false → (segments p).getLast? = some last) := by
  obtain ⟨ext, suffix, full, plain⟩ := exists_ext_of_known known
  obtain ⟨name, named⟩ := Option.ne_none_iff_exists'.mp
    (Path.fileName?_ne_none (p := p) (by simp [suffix]))
  have cut : (Path.cutExtension name).2 = some ext := by
    rw [Path.suffix, named] at suffix
    cases h : (Path.cutExtension name).2 <;> simp_all
  have whole := Path.append_of_cutExtension cut
  obtain ⟨head, tail, front, text, idle, suffixed⟩ := Path.exists_text_of_fileName? named
  generalize (Path.cutExtension name).1 = stem at whole suffixed
  have inside : ∀ c ∈ '.' :: ext, separates c = false := by
    simp_all [separates]
  -- The extension is in one piece with what is before it.
  obtain ⟨pieces, last, split, split'⟩ := splitOn_append_of_forall inside stem
  have busy : Path.isIdle (last ++ '.' :: ext) = false := by
    cases last <;> simp [Path.isIdle, full]
  refine ⟨last, ext, fun h => (plain '.' h).1 rfl, ?_, fun busy => ?_⟩
  · rw [leafStem?, text, busyPieces_append_idle idle, whole, getLast?_busyPieces front split' busy,
      Option.map_some]
  · have other : stem ≠ ['.'] := by
      rintro rfl
      have alone : splitOn separates ['.'] = [['.']] := by decide
      obtain rfl : ['.'] = last := by simpa [alone] using congrArg List.getLast? split
      simp [Path.isIdle] at busy
    rw [segments_eq, suffixed other, List.append_nil]
    exact getLast?_busyPieces front split busy

/-- A leaf whose stem does not start with a dot gives the last segment. -/
theorem getLast?_segments (known : (SourceKind.ofPath? p).isSome = true) {stem : Text}
    (leaf : leafStem? p = some stem) (plain : stem.head? ≠ some '.') :
    (segments p).getLast? = some stem := by
  obtain ⟨last, ext, free, found, counts⟩ := exists_leaf known
  have same := Option.some.inj (found.symm.trans leaf)
  have full : last ≠ [] := by
    rintro rfl
    rw [List.nil_append, cutExtension_hidden free] at same
    exact plain (by rw [← same]; rfl)
  rw [Path.cutExtension_append full free] at same
  obtain rfl : last = stem := same
  apply counts
  have dot : last ≠ ['.'] := by
    rintro rfl
    exact plain rfl
  simp [Path.isIdle, full, dot]

/-! ## Initialisers -/

/-- What a source tells of itself: that it is an initialiser exactly if its file is named so, and then
the name of what it initialises. -/
structure TellsInit (source : NamedSource) : Prop where
  flag : source.isPackageInit = true ↔ leafStem? source.input = some initSegment
  plain : source.isPackageInit = false → source.name = source.fullName
  init : source.isPackageInit = true → ∃ front,
    split '.' source.fullName = front ++ [initSegment] ∧ source.name = join ['.'] front

theorem endsWith_fullName (p : Path) : endsWith initSegment (fullName p) = true ↔
    ∃ last, (segments p).getLast? = some last ∧ endsWith initSegment last = true := by
  rw [fullName]
  rcases List.eq_nil_or_concat (segments p) with none | ⟨front, last, some⟩
  · rw [none]
    simp only [List.getLast?_nil, reduceCtorEq, false_and, exists_false, iff_false]
    decide
  · rw [some, List.concat_eq_append, endsWith_join (by decide)]
    simp

/-- Where the last segment is that of an initialiser, the name is that of the package exactly if no
folder is named so. -/
theorem name_of_init_iff {front : List Text} (h : segments p = front ++ [initSegment]) :
    (∃ pieces, split '.' (fullName p) = pieces ++ [initSegment] ∧
      moduleName p = join ['.'] pieces) ↔ initSegment ∉ front := by
  have pieces : split '.' (fullName p) = front.flatMap (split '.') ++ [initSegment] := by
    rw [fullName, h, split_join (by simp), List.flatMap_append, List.flatMap_singleton,
      split_initSegment]
  have name : moduleName p = join ['.'] (front.filter (· != initSegment)) := by
    simp [moduleName, h]
  have same : join ['.'] (front.filter (· != initSegment)) = join ['.'] front ↔
      initSegment ∉ front :=
    join_filter_eq_iff (by decide)
  rw [pieces, name, ← same]
  constructor
  · rintro ⟨others, split, short⟩
    rw [short, ← List.append_cancel_right split, join_flatMap_split]
  · intro short
    exact ⟨_, rfl, by rw [short, join_flatMap_split]⟩

/-- A source tells whether it is an initialiser exactly if no folder is named after one, and its last
segment does not end in the word without being the stem of its file. -/
theorem tellsInit_iff (known : (SourceKind.ofPath? p).isSome = true) (home : Option Path) :
    TellsInit (.of (.resolve p home)) ↔
      initSegment ∉ (segments p).dropLast ∧
      ∀ last, (segments p).getLast? = some last → endsWith initSegment last = true →
        leafStem? p = some initSegment := by
  have leaf (h : leafStem? p = some initSegment) : (segments p).getLast? = some initSegment :=
    getLast?_segments known h (by decide)
  have plain : moduleName p = fullName p ↔ initSegment ∉ segments p :=
    join_filter_eq_iff (by decide)
  have itself : endsWith initSegment initSegment = true := by decide
  constructor
  · rintro ⟨flag, other, init⟩
    cases said : (NamedSource.of (.resolve p home)).isPackageInit with
    | true =>
      have file := flag.mp said
      obtain ⟨front, h⟩ := List.getLast?_eq_some_iff.mp (leaf file)
      refine ⟨?_, fun _ _ _ => file⟩
      simpa [h] using (name_of_init_iff h).mp (init said)
    | false =>
      refine ⟨fun inside => plain.mp (other said) (List.dropLast_subset _ inside), ?_⟩
      intro last found ends
      have flagged := (endsWith_fullName p).mpr ⟨last, found, ends⟩
      exact absurd (said.symm.trans flagged) Bool.false_ne_true
  · rintro ⟨folders, file⟩
    have flag : endsWith initSegment (fullName p) = true ↔ leafStem? p = some initSegment := by
      rw [endsWith_fullName]
      constructor
      · rintro ⟨last, found, ends⟩
        exact file last found ends
      · intro h
        exact ⟨initSegment, leaf h, itself⟩
    refine ⟨flag, fun other => ?_, fun init => ?_⟩
    · apply plain.mpr
      intro inside
      -- The last segment is not that of an initialiser, as the name does not end in the word.
      rcases List.eq_nil_or_concat (segments p) with none | ⟨front, last, some⟩
      · simp [none] at inside
      · rw [List.concat_eq_append] at some
        rw [some, List.dropLast_concat] at folders
        obtain rfl : initSegment = last := by simpa [some, folders] using inside
        have flagged := (endsWith_fullName p).mpr ⟨initSegment, by simp [some], itself⟩
        exact absurd (other.symm.trans flagged) Bool.false_ne_true
    · obtain ⟨front, h⟩ := List.getLast?_eq_some_iff.mp (leaf (flag.mp init))
      apply (name_of_init_iff h).mpr
      simpa [h] using folders

/-- The initialiser of a package below another. -/
theorem tellsInit_iff_initialiser :
    (SourceKind.ofPath? ⟨"a/b\\__init__.py".toList⟩).isSome = true ∧
      leafStem? ⟨"a/b\\__init__.py".toList⟩ = some initSegment ∧
      TellsInit (.of (.resolve ⟨"a/b\\__init__.py".toList⟩ none)) := by
  have known : (SourceKind.ofPath? ⟨"a/b\\__init__.py".toList⟩).isSome = true := by decide
  have file : leafStem? ⟨"a/b\\__init__.py".toList⟩ = some initSegment := by decide
  have folders : initSegment ∉ (segments ⟨"a/b\\__init__.py".toList⟩).dropLast := by decide
  exact ⟨known, file, (tellsInit_iff known none).mpr ⟨folders, fun _ _ _ => file⟩⟩

/-- A script whose name ends in the word is taken for an initialiser. -/
theorem not_tellsInit_suffixed :
    SourceKind.ofPath? ⟨"pkg/my__init__.py".toList⟩ = some .script ∧
      leafStem? ⟨"pkg/my__init__.py".toList⟩ = some "my__init__".toList ∧
      (NamedSource.of (.resolve ⟨"pkg/my__init__.py".toList⟩ none)).isPackageInit = true ∧
      ¬ TellsInit (.of (.resolve ⟨"pkg/my__init__.py".toList⟩ none)) := by
  have stem : leafStem? ⟨"pkg/my__init__.py".toList⟩ = some "my__init__".toList := by decide
  have flagged :
      (NamedSource.of (.resolve ⟨"pkg/my__init__.py".toList⟩ none)).isPackageInit = true := by
    decide
  refine ⟨by decide, stem, flagged, fun h => ?_⟩
  have wrong := stem.symm.trans (h.flag.mp flagged)
  exact absurd wrong (by decide)

end NativeFreeze
