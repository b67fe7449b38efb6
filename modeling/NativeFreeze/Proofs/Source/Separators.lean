import NativeFreeze.Proofs.Source.Names

/-!
# Names with separators of either kind

A path keeps its names when some of its separators are turned into those of the other kind, since both
are read as separators once the extension is cut off. Only the cut itself knows but one of them: where
two dots and an extension stand behind a slash, they are left as an upward step, and behind a backslash
they are not.
-/

namespace NativeFreeze

open NativeFreeze.Path NativeFreeze.Text

variable {p q : Path} {s t front front' ext : Text} {c : Char} {segs : List Text}

/-! ## Texts up to their separators -/

theorem separates_eq_false_iff : separates c = false ↔ c ≠ '/' ∧ c ≠ '\\' := by
  simp [separates]

theorem slashed_append (s t : Text) : slashed (s ++ t) = slashed s ++ slashed t :=
  List.map_append

/-- Turning the separators leaves the pieces between them. -/
theorem splitOn_separates_eq (s : Text) : splitOn separates s = split '/' (slashed s) := by
  induction s with
  | nil => rfl
  | cons c s ih =>
    have turned : slashed (c :: s) = (if c = '\\' then '/' else c) :: slashed s := rfl
    rw [turned, split, splitOn, splitOn, ih, ← split]
    by_cases sep : c = '/' ∨ c = '\\'
    · rcases sep with rfl | rfl <;> rfl
    · obtain ⟨slash, back⟩ := not_or.mp sep
      have inside : separates c = false := separates_eq_false_iff.mpr ⟨slash, back⟩
      rw [if_neg back, if_neg (by simpa using inside), if_neg (by simpa using slash)]

theorem busyPieces_congr (same : slashed s = slashed t) : busyPieces s = busyPieces t := by
  rw [busyPieces, busyPieces, splitOn_separates_eq, splitOn_separates_eq, same]

/-- A text without separators is spelled in one way. -/
theorem eq_of_slashed (plain : ∀ c ∈ t, separates c = false) (same : slashed s = slashed t) :
    s = t := by
  induction t generalizing s with
  | nil => exact List.map_eq_nil_iff.mp same
  | cons c t ih =>
    obtain ⟨own, rest⟩ := List.forall_mem_cons.mp plain
    obtain ⟨d, s, rfl, first, later⟩ := List.map_eq_cons_iff.mp same
    obtain ⟨slash, back⟩ := separates_eq_false_iff.mp own
    have letter : d = c := by
      dsimp only at first
      rw [if_neg back] at first
      split at first
      · exact absurd first.symm slash
      · exact first
    rw [letter, ih rest later]

theorem exists_append_of_slashed (plain : ∀ c ∈ t, separates c = false)
    (same : slashed s = slashed (front ++ t)) :
    ∃ front', s = front' ++ t ∧ slashed front' = slashed front := by
  rw [slashed_append] at same
  obtain ⟨front', t', rfl, fronts, tails⟩ := List.map_eq_append_iff.mp same
  exact ⟨front', by rw [eq_of_slashed plain tails], fronts⟩

/-! ## Paths with a known extension -/

/-- A path text that ends in the extension of a kind of sources, with something of a name before it. -/
structure EndsKnown (p : Path) (front : Text) (c : Char) (ext : Text) : Prop where
  text : p.text = front ++ c :: '.' :: ext
  letter : separates c = false
  known : ∃ kind : SourceKind, '.' :: ext ∈ kind.suffixes

theorem EndsKnown.plain (ends : EndsKnown p front c ext) :
    ext ≠ [] ∧ ∀ d ∈ ext, d ≠ '.' ∧ separates d = false := by
  obtain ⟨kind, listed⟩ := ends.known
  have all : kind.suffixes.all (fun s =>
      s.tail != [] && s.tail.all fun d => d != '.' && !separates d) = true := by
    cases kind <;> decide
  simpa using List.all_eq_true.mp all _ listed

/-- A path that is spelled with other separators ends in the same way. -/
theorem EndsKnown.respelled (ends : EndsKnown p front c ext) (same : slashed p.text = slashed q.text) :
    ∃ front', EndsKnown q front' c ext ∧ slashed front' = slashed front := by
  have plain : ∀ d ∈ c :: '.' :: ext, separates d = false := by
    simp only [List.forall_mem_cons]
    exact ⟨ends.letter, rfl, fun d hd => (ends.plain.2 d hd).2⟩
  obtain ⟨front', text, fronts⟩ := exists_append_of_slashed plain (ends.text ▸ same.symm)
  exact ⟨front', ⟨text, ends.letter, ends.known⟩, fronts⟩

/-- The file name goes back to the last slash. -/
theorem EndsKnown.exists_fileName? (ends : EndsKnown p front c ext) : ∃ before piece,
    front = before ++ piece ∧ (before = [] ∨ before.getLast? = some '/') ∧
      p.fileName? = some (piece ++ c :: '.' :: ext) := by
  have plain : '/' ∉ c :: '.' :: ext := by
    have letter := separates_eq_false_iff.mp ends.letter
    have rest : '/' ∉ ext := fun mem => absurd (ends.plain.2 _ mem).2 (by decide)
    simp [Ne.symm letter.1, rest]
  obtain ⟨pieces, piece, split, split'⟩ := split_append_of_not_mem plain front
  have busy : isIdle (piece ++ c :: '.' :: ext) = false := by
    cases piece <;> simp [isIdle]
  have level : piece ++ c :: '.' :: ext ≠ ['.', '.'] := by
    have full := ends.plain.1
    rcases piece with _ | ⟨d, _ | ⟨e, piece⟩⟩ <;> simp [full]
  refine ⟨pieces.flatMap (· ++ ['/']), piece, ?_, ?_, ?_⟩
  · rw [← join_split '/' front, split, join_concat]
  · rcases List.eq_nil_or_concat pieces with rfl | ⟨pieces, last, rfl⟩
    · exact .inl rfl
    · right
      simp
  · rw [fileName?_eq, lastPiece?, ends.text, split', List.reverse_append, List.reverse_singleton,
      List.singleton_append, List.find?_cons, busy]
    simp [Option.filter, level]

theorem EndsKnown.cut (ends : EndsKnown p front c ext) (piece : Text) :
    cutExtension (piece ++ c :: '.' :: ext) = (piece ++ [c], some ext) := by
  have dot : '.' ∉ ext := fun mem => (ends.plain.2 _ mem).1 rfl
  have stem : piece ++ c :: '.' :: ext = (piece ++ [c]) ++ '.' :: ext := by simp
  rw [stem, cutExtension_append (by simp) dot]

theorem EndsKnown.suffix (ends : EndsKnown p front c ext) : p.suffix = '.' :: ext := by
  obtain ⟨before, piece, -, -, named⟩ := ends.exists_fileName?
  rw [Path.suffix, named]
  dsimp only
  rw [ends.cut]

theorem EndsKnown.stem? (ends : EndsKnown p front c ext) : ∃ before piece, front = before ++ piece ∧
    (before = [] ∨ before.getLast? = some '/') ∧ p.fileName? = some (piece ++ c :: '.' :: ext) ∧
      p.stem? = some (piece ++ [c]) := by
  obtain ⟨before, piece, whole, start, named⟩ := ends.exists_fileName?
  exact ⟨before, piece, whole, start, named, by rw [Path.stem?, named, Option.map_some, ends.cut]⟩

/-- The extension is cut off, unless nothing but a dot is before it. -/
theorem EndsKnown.text_withSuffix (ends : EndsKnown p front c ext) (plain : p.stem? ≠ some ['.']) :
    (p.withSuffix []).text = front ++ [c] := by
  obtain ⟨before, piece, whole, -, named, stem⟩ := ends.stem?
  obtain ⟨head, tail, -, text, idle, suffixed⟩ := exists_text_of_fileName? named
  rw [ends.cut] at suffixed
  have nothing : tail = [] := by
    rcases List.eq_nil_or_concat tail with none | ⟨tail, last, rfl⟩
    · exact none
    -- An idle piece at the end ends in a separator or a dot, and an extension in neither.
    obtain ⟨full, inside⟩ := ends.plain
    obtain ⟨d, hd⟩ := Option.ne_none_iff_exists'.mp (mt List.getLast?_eq_none_iff.mp full)
    obtain ⟨dot, sep⟩ := inside d (List.mem_of_getLast? hd)
    have here : p.text.getLast? = some d := by simp [ends.text, List.getLast?_cons, hd]
    have other : p.text.getLast? = some '/' ∨ p.text.getLast? = some '.' := by
      have finish := idle last (by simp)
      rw [text, List.concat_eq_append, List.flatMap_append, List.flatMap_singleton,
        ← List.append_assoc, List.getLast?_append]
      rcases (by simpa [isIdle] using finish : last = [] ∨ last = ['.']) with rfl | rfl
      · exact .inl rfl
      · exact .inr rfl
    rcases other with slash | stop
    · exact absurd (Option.some.inj (here.symm.trans slash)) (separates_eq_false_iff.mp sep).1
    · exact absurd (Option.some.inj (here.symm.trans stop)) dot
  have same : (head ++ (piece ++ [c])) ++ '.' :: ext = (front ++ [c]) ++ '.' :: ext := by
    simpa [nothing, ends.text] using text.symm
  rw [suffixed fun dot => plain (stem.trans (congrArg some dot)), List.append_nil]
  exact List.append_cancel_right same

/-- Where nothing but a dot is before the extension, two dots are left. -/
theorem EndsKnown.text_withSuffix_dots (ends : EndsKnown p front c ext) (dots : p.stem? = some ['.']) :
    (p.withSuffix []).text = front ++ ['.', '.'] ∧ c = '.' ∧
      (front = [] ∨ front.getLast? = some '/') := by
  obtain ⟨before, piece, whole, start, named, stem⟩ := ends.stem?
  obtain ⟨rfl, rfl⟩ : piece = [] ∧ c = '.' := by
    have same := Option.some.inj (stem.symm.trans dots)
    cases piece <;> simp_all
  rw [List.append_nil] at whole
  rw [List.nil_append] at named
  refine ⟨?_, rfl, whole ▸ start⟩
  have stem : (cutExtension ('.' :: '.' :: ext)).1 = ['.'] := congrArg Prod.fst (ends.cut [])
  have final : endsWith ('.' :: '.' :: ext) p.text = true :=
    List.isSuffixOf_iff_suffix.mpr ⟨front, ends.text.symm⟩
  have cut : (front ++ '.' :: '.' :: ext).take
      ((front ++ '.' :: '.' :: ext).length - (('.' :: '.' :: ext).length - 2)) =
        front ++ ['.', '.'] := by
    rw [show front ++ '.' :: '.' :: ext = (front ++ ['.', '.']) ++ ext by simp]
    refine List.take_left' ?_
    simp only [List.length_append, List.length_cons, List.length_nil]
    omega
  rw [Path.withSuffix, named]
  simp only [stem, final, decide_true, Bool.and_true, if_true]
  rw [ends.text, cut]

theorem busyPieces_append_of_front (start : front = [] ∨ front.getLast? = some '/') (s : Text) :
    busyPieces (front ++ s) = busyPieces front ++ busyPieces s := by
  rcases start with rfl | slash
  · rfl
  · obtain ⟨back, rfl⟩ := List.getLast?_eq_some_iff.mp slash
    have empty : busyPieces [] = [] := rfl
    rw [List.append_assoc, List.singleton_append, busyPieces_append, busyPieces_append, empty,
      List.append_nil]

/-- The segments are those of the text without its extension; where nothing but a dot is before the
extension, an upward step is left as one more. -/
theorem EndsKnown.segments_eq (ends : EndsKnown p front c ext) :
    segments p = busyPieces (front ++ [c]) ++
      if p.stem? = some ['.'] then [['.', '.']] else [] := by
  rw [NativeFreeze.segments_eq]
  split
  · next dots =>
    obtain ⟨text, rfl, start⟩ := ends.text_withSuffix_dots dots
    have up : busyPieces ['.', '.'] = [['.', '.']] := by decide
    have here : busyPieces ['.'] = [] := by decide
    rw [text, busyPieces_append_of_front start, busyPieces_append_of_front start, up, here,
      List.append_nil]
  · next plain => rw [ends.text_withSuffix plain, List.append_nil]

/-! ## Names -/

/-- One more segment makes a name longer. -/
theorem Text.join_concat_ne (segs : List Text) {s : Text} (full : s ≠ []) :
    join ['.'] (segs ++ [s]) ≠ join ['.'] segs := by
  intro same
  have long := List.length_pos_iff.mpr full
  have lengths := congrArg List.length same
  rw [length_join, length_join, List.flatMap_append, List.length_append, List.flatMap_singleton,
    List.length_cons] at lengths
  omega

/-- Two paths of sources are named alike. -/
structure NamedAlike (p q : Path) (home : Option Path) : Prop where
  name : (NamedSource.of (.resolve p home)).name = (NamedSource.of (.resolve q home)).name
  fullName : (NamedSource.of (.resolve p home)).fullName = (NamedSource.of (.resolve q home)).fullName
  isPackageInit : (NamedSource.of (.resolve p home)).isPackageInit =
    (NamedSource.of (.resolve q home)).isPackageInit

theorem namedAlike_of_segments (same : segments p = segments q) (home : Option Path) :
    NamedAlike p q home := by
  have full : fullName p = fullName q := congrArg (join ['.']) same
  have short : moduleName p = moduleName q := by
    rw [moduleName, moduleName, same]
  exact ⟨short, full, congrArg (endsWith initSegment) full⟩

/-- Turning separators leaves the kind of a source; and it leaves its names exactly if, of both paths or
of neither, nothing but a dot is left of the file name without its extension. -/
theorem namedAlike_iff (ends : EndsKnown p front c ext) (same : slashed p.text = slashed q.text)
    (home : Option Path) :
    SourceKind.ofPath? p = SourceKind.ofPath? q ∧
      (NamedAlike p q home ↔ (p.stem? = some ['.'] ↔ q.stem? = some ['.'])) := by
  obtain ⟨front', ends', fronts⟩ := ends.respelled same
  have kinds : SourceKind.ofPath? p = SourceKind.ofPath? q := by
    simp only [SourceKind.ofPath?, SourceKind.accepts, ends.suffix, ends'.suffix]
  have pieces : busyPieces (front' ++ [c]) = busyPieces (front ++ [c]) :=
    busyPieces_congr (by rw [slashed_append, slashed_append, fronts])
  have first := ends.segments_eq
  have second := ends'.segments_eq
  rw [pieces] at second
  refine ⟨kinds, fun alike => ?_, fun dots => ?_⟩
  · have full : join ['.'] (segments p) = join ['.'] (segments q) := alike.fullName
    by_cases hp : p.stem? = some ['.'] <;> by_cases hq : q.stem? = some ['.']
    · simp [hp, hq]
    · rw [first, second, if_pos hp, if_neg hq, List.append_nil] at full
      exact absurd full (join_concat_ne _ (by decide))
    · rw [first, second, if_neg hp, if_pos hq, List.append_nil] at full
      exact absurd full.symm (join_concat_ne _ (by decide))
    · simp [hp, hq]
  · refine namedAlike_of_segments ?_ home
    rw [first, second]
    simp only [dots]

/-- The initialiser of a package, with separators of either kind. -/
theorem namedAlike_iff_initialiser :
    EndsKnown ⟨"a\\..b/./__init__.py".toList⟩ "a\\..b/./__init_".toList '_' "py".toList ∧
      slashed "a\\..b/./__init__.py".toList = slashed "a/..b\\.\\__init__.py".toList ∧
      SourceKind.ofPath? ⟨"a\\..b/./__init__.py".toList⟩ =
        SourceKind.ofPath? ⟨"a/..b\\.\\__init__.py".toList⟩ ∧
      NamedAlike ⟨"a\\..b/./__init__.py".toList⟩ ⟨"a/..b\\.\\__init__.py".toList⟩ none := by
  have ends : EndsKnown ⟨"a\\..b/./__init__.py".toList⟩ "a\\..b/./__init_".toList '_' "py".toList :=
    ⟨by decide, by decide, .script, by decide⟩
  have same : slashed "a\\..b/./__init__.py".toList = slashed "a/..b\\.\\__init__.py".toList := by
    decide
  obtain ⟨kinds, alike⟩ := namedAlike_iff (q := ⟨"a/..b\\.\\__init__.py".toList⟩) ends same none
  exact ⟨ends, same, kinds, alike.mpr (by decide)⟩

/-- Two dots in front of the extension are a step behind a slash, and nothing behind a backslash. -/
theorem not_namedAlike_dots :
    EndsKnown ⟨"a/..py".toList⟩ "a/".toList '.' "py".toList ∧
      slashed "a/..py".toList = slashed "a\\..py".toList ∧
      (NamedSource.of (.resolve ⟨"a/..py".toList⟩ none)).name = "a...".toList ∧
      (NamedSource.of (.resolve ⟨"a\\..py".toList⟩ none)).name = "a".toList ∧
      ¬NamedAlike ⟨"a/..py".toList⟩ ⟨"a\\..py".toList⟩ none := by
  have ends : EndsKnown ⟨"a/..py".toList⟩ "a/".toList '.' "py".toList :=
    ⟨by decide, by decide, .script, by decide⟩
  refine ⟨ends, by decide, by decide, by decide, fun alike => ?_⟩
  exact absurd alike.name (by decide)

end NativeFreeze
