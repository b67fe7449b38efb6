import Mathlib.Order.Bounds.Image
import NativeFreeze.Proofs.Text.Slice
import NativeFreeze.Proofs.Trace.Artifact
import NativeFreeze.Proofs.Trace.Rooted

/-!
# Slices of a line

A line of a log can be searched by byte offsets: the install root is looked for in a copy of the line
that is folded as paths are compared, and the line is sliced where it was found. Folding keeps the size
of every character, so no slice is refused, and slicing finds the paths that the line mentions. They are
parts of the line, one behind the other.
-/

namespace NativeFreeze.ImportLog

open NativeFreeze.Text

variable {h : Layout} {suffix s line path piece front behind more tail : Text} {pieces : List Text}
  {p : Path} {width stop : Nat} {span : Nat × Nat}

/-! ## Searching by offsets -/

/-- Whether a byte is an ASCII letter, an ASCII digit or `_`. -/
def isNameByte (b : UInt8) : Bool :=
  (0x30 ≤ b && b ≤ 0x39) || (0x41 ≤ b && b ≤ 0x5a) || (0x61 ≤ b && b ≤ 0x7a) || b == 0x5f

/-- Whether no name goes on behind `i` bytes. -/
def stopsAt (s : Text) (i : Nat) : Bool :=
  match s.bytes[i]? with
  | none => true
  | some b => !isNameByte b

/-- Where the artifact path ends that a piece starts with, if `width` bytes of it spell the install
root. -/
def stop? (h : Layout) (piece : Text) (width : Nat) : Option Nat :=
  least? (h.artifactSuffixes.filterMap fun suffix =>
    (slice? piece width piece.bytes.length).bind fun behind =>
      ((offsets suffix behind).map fun i => width + i + suffix.bytes.length).find? (stopsAt piece))

/-- The artifact path that a piece starts with; no answer if a slice is refused. -/
def slicedArtifact? (h : Layout) (piece : Text) (width : Nat) : Option (Option Text) :=
  match stop? h piece width with
  | none => some none
  | some stop => (slice? piece 0 stop).map some

/-- The offsets between which a line is sliced: each occurrence of the install root with the next one,
as found in the folded line. -/
def rootSpans (h : Layout) (line : Text) : List (Nat × Nat) :=
  if h.installRoot.text.isEmpty then []
  else spans line.bytes.length (offsets (folded h h.installRoot.text) (folded h line))

/-- The path that is kept of what a piece starts with. -/
def kept? (h : Layout) : Option Text → Option Path
  | some path => if Text.endsWith h.bytecodeSuffix path then none else some ⟨path⟩
  | none => none

/-- The artifact paths that a line mentions, found by slicing it; no answer if a slice is refused. -/
def slicedPaths? (h : Layout) (line : Text) : Option (List Path) :=
  ((rootSpans h (unescaped line)).mapM fun span =>
    (slice? (unescaped line) span.1 span.2).bind fun piece =>
      (slicedArtifact? h piece h.installRoot.text.bytes.length).map (kept? h)).map
    fun found => found.filterMap id

theorem kept?_eq_some_iff {found : Option Text} :
    kept? h found = some p ↔ found = some p.text ∧ ¬h.bytecodeSuffix <:+ p.text := by
  cases found with
  | none => simp [kept?]
  | some path =>
    rw [kept?, Text.endsWith]
    split
    · rename_i compiled
      constructor
      · rintro ⟨⟩
      · rintro ⟨⟨⟩, other⟩
        exact absurd (List.isSuffixOf_iff_suffix.mp compiled) other
    · rename_i other
      rw [List.isSuffixOf_iff_suffix] at other
      constructor
      · rintro ⟨⟩
        exact ⟨rfl, other⟩
      · rintro ⟨⟨⟩, -⟩
        rfl

theorem pathsIn_eq_filterMap (h : Layout) (line : Text) :
    pathsIn h line = (rooted h (unescaped line)).filterMap fun piece => kept? h (artifact? h piece) := by
  refine List.filterMap_congr fun piece _ => ?_
  cases artifact? h piece <;> rfl

/-! ## The pieces of a line -/

theorem utf8Size_foldChar (h : Layout) (c : Char) : (foldChar h c).utf8Size = c.utf8Size := by
  unfold foldChar
  split
  · split
    · rename_i back
      obtain rfl := (toLower_eq_iff rfl).mp back
      rfl
    · exact utf8Size_toLower c
  · rfl

theorem length_bytes_folded (h : Layout) (s : Text) :
    (folded h s).bytes.length = s.bytes.length := by
  rw [folded_eq_map]
  exact length_bytes_map (utf8Size_foldChar h) s

theorem length_bytes_of_folded {t : Text} (same : folded h s = folded h t) :
    s.bytes.length = t.bytes.length := by
  rw [← length_bytes_folded h s, same, length_bytes_folded]

theorem startsFrom_folded (h : Layout) (i : Nat) (pieces : List Text) :
    startsFrom i (pieces.map (folded h)) = startsFrom i pieces := by
  induction pieces generalizing i with
  | nil => rfl
  | cons piece pieces ih => rw [List.map_cons, startsFrom, startsFrom, length_bytes_folded, ih]

/-- The pieces of a line that start with the root are its slices between the offsets that are found in
the folded line. -/
theorem map_slice?_rootSpans (h : Layout) (line : Text) :
    (rootSpans h line).map (fun span => slice? line span.1 span.2) = (rooted h line).map some := by
  by_cases empty : h.installRoot.text = []
  · simp [rootSpans, rooted, empty]
  have full : folded h h.installRoot.text ≠ [] := by simpa [folded_eq_map] using empty
  obtain ⟨front, whole, cut⟩ := exists_cut_rooted empty line
  have starts : offsets (folded h h.installRoot.text) (folded h line) =
      startsFrom (bytes front).length (rooted h line) := by
    rw [offsets, offsetsFrom_eq_startsFrom full cut, startsFrom_folded, length_bytes_folded,
      Nat.zero_add]
  have slices := map_slice?_spans front (rooted h line)
  rw [whole] at slices
  rwa [rootSpans, if_neg (by simpa using empty), starts]

/-- Where a line is sliced, it has a piece that starts with the root. -/
theorem slice?_of_mem_rootSpans (mem : span ∈ rootSpans h line) :
    ∃ piece ∈ rooted h line, slice? line span.1 span.2 = some piece := by
  have slices : slice? line span.1 span.2 ∈ (rooted h line).map some := by
    rw [← map_slice?_rootSpans]
    exact List.mem_map_of_mem mem
  obtain ⟨piece, rooted, sliced⟩ := List.mem_map.mp slices
  exact ⟨piece, rooted, sliced.symm⟩

/-! ## The artifact of a piece -/

/-- The first byte of a character tells whether a name may go on with it. -/
theorem isNameByte_eq {c : Char} {b : UInt8}
    (first : b.toNat = c.toNat ∧ c.toNat < 0x80 ∨ 0xc0 ≤ b.toNat ∧ 0x80 ≤ c.toNat) :
    isNameByte b = (c.isAlphanum || c == '_') := by
  have byte : isNameByte b = true ↔ ((0x30 ≤ b.toNat ∧ b.toNat ≤ 0x39 ∨
      0x41 ≤ b.toNat ∧ b.toNat ≤ 0x5a) ∨ 0x61 ≤ b.toNat ∧ b.toNat ≤ 0x7a) ∨ b.toNat = 0x5f := by
    simp [isNameByte, UInt8.le_iff_toNat_le, ← UInt8.toNat_inj]
  have char : (c.isAlphanum || c == '_') = true ↔ ((0x41 ≤ c.toNat ∧ c.toNat ≤ 0x5a ∨
      0x61 ≤ c.toNat ∧ c.toNat ≤ 0x7a) ∨ 0x30 ≤ c.toNat ∧ c.toNat ≤ 0x39) ∨ c.toNat = 0x5f := by
    have underscore : c = '_' ↔ c.toNat = 0x5f := Char.toNat_inj.symm
    unfold Char.isAlphanum Char.isAlpha Char.isUpper Char.isLower Char.isDigit
    simp [UInt32.le_iff_toNat_le, underscore]
  rw [Bool.eq_iff_iff, byte, char]
  omega

theorem stopsAt_append (front behind : Text) :
    stopsAt (front ++ behind) front.bytes.length = !goesOn behind := by
  rw [stopsAt, ← Nat.add_zero front.bytes.length, getElem?_bytes_append]
  cases behind with
  | nil => rfl
  | cons c behind =>
    obtain ⟨b, more, code, first, -⟩ := Utf8.exists_encodeChar c
    rw [bytes_cons, code, goesOn, ← isNameByte_eq first]
    rfl

/-- Wherever a suffix is found, what is left behind it tells where it ends. -/
theorem map_offsetsFrom (suffix s : Text) (i read skip : Nat) :
    (offsetsFrom suffix i skip s).map (· + suffix.bytes.length) =
      (endsFrom suffix read skip s).map fun found => i + s.bytes.length - found.2.bytes.length := by
  induction s generalizing i read skip with
  | nil =>
    cases skip with
    | succ skip => rfl
    | zero => cases suffix <;> simp [offsetsFrom, endsFrom]
  | cons c r ih =>
    have size : i + (bytes (c :: r)).length = i + c.utf8Size + (bytes r).length := by
      rw [length_bytes_cons, Nat.add_assoc]
    cases skip with
    | succ skip => rw [offsetsFrom, endsFrom, ih _ (read + 1), size]
    | zero =>
      rw [offsetsFrom, endsFrom]
      cases after : Text.after? suffix (c :: r) with
      | none =>
        have miss : ¬suffix.isPrefixOf (c :: r) = true := by
          rw [List.isPrefixOf_iff_prefix]
          rintro ⟨rest, whole⟩
          rw [Text.after?_eq_some_iff.mpr whole.symm] at after
          cases after
        dsimp only
        rw [if_neg miss, ih _ (read + 1), size]
      | some rest =>
        have whole := Text.after?_eq_some_iff.mp after
        have hit : suffix.isPrefixOf (c :: r) = true := by
          rw [List.isPrefixOf_iff_prefix, whole]
          exact List.prefix_append suffix rest
        have stop : i + (bytes (c :: r)).length - rest.bytes.length = i + suffix.bytes.length := by
          rw [whole, bytes_append, List.length_append]
          omega
        dsimp only
        rw [if_pos hit, List.map_cons, List.map_cons, ih _ (read + 1), stop, size]

/-- How many bytes `front` and the first `n` characters behind it have. -/
def sizeUpTo (front behind : Text) (n : Nat) : Nat :=
  (front ++ behind.take n).bytes.length

theorem monotone_sizeUpTo (front behind : Text) : Monotone (sizeUpTo front behind) := by
  intro n m le
  obtain ⟨more, taken⟩ : behind.take n <+: behind.take m := List.take_prefix_take_left le
  simp [sizeUpTo, ← taken]

theorem append_of_mem_endsFrom {found : Nat × Text} (mem : found ∈ endsFrom suffix 0 0 s) :
    s = s.take found.1 ++ found.2 := by
  obtain ⟨before, whole, count⟩ := exists_of_mem_endsFrom mem
  rw [Nat.zero_add] at count
  rw [count, whole, List.take_left' rfl]

theorem map_offsets (suffix front behind : Text) :
    (offsets suffix behind).map (fun i => front.bytes.length + i + suffix.bytes.length) =
      (endsFrom suffix 0 0 behind).map fun found => sizeUpTo front behind found.1 := by
  have shifted := congrArg (List.map (front.bytes.length + ·)) (map_offsetsFrom suffix behind 0 0 0)
  rw [List.map_map, List.map_map] at shifted
  simp only [Function.comp_def, ← Nat.add_assoc] at shifted
  rw [offsets, shifted]
  refine List.map_congr_left fun found mem => ?_
  have sizes := congrArg (fun s => (bytes s).length) (append_of_mem_endsFrom mem)
  simp only [bytes_append, List.length_append] at sizes
  simp only [sizeUpTo, bytes_append, List.length_append]
  omega

/-- By offsets, the same end of a suffix is found as by characters. -/
theorem find?_stopsAt (suffix front behind : Text) :
    ((offsets suffix behind).map fun i => front.bytes.length + i + suffix.bytes.length).find?
        (stopsAt (front ++ behind)) = (shortestEnd? suffix behind).map (sizeUpTo front behind) := by
  have stops : ∀ found ∈ endsFrom suffix 0 0 behind,
      (stopsAt (front ++ behind) ∘ fun found => sizeUpTo front behind found.1) found =
        !goesOn found.2 := by
    intro found mem
    have next := stopsAt_append (front ++ behind.take found.1) found.2
    rwa [List.append_assoc, ← append_of_mem_endsFrom mem] at next
  rw [map_offsets, List.find?_map, ← List.head?_filter, List.filter_congr stops, List.head?_filter,
    shortestEnd?, Option.map_map]
  rfl

/-- The least of some numbers stays the least under a monotone function. -/
theorem least?_map {f : Nat → Nat} (mono : Monotone f) (ns : List Nat) :
    least? (ns.map f) = (least? ns).map f := by
  cases least : least? ns with
  | none =>
    cases ns with
    | nil => rfl
    | cons n ns => cases least
  | some n =>
    have image : {m | m ∈ ns.map f} = f '' {m | m ∈ ns} := by
      ext m
      simp
    rw [Option.map_some, least?_eq_some_iff, image]
    exact mono.map_isLeast (least?_eq_some_iff.mp least)

theorem stop?_append (h : Layout) (front behind : Text) :
    stop? h (front ++ behind) front.bytes.length =
      (least? (h.artifactSuffixes.filterMap fun suffix => shortestEnd? suffix behind)).map
        (sizeUpTo front behind) := by
  have sliced : slice? (front ++ behind) front.bytes.length (front ++ behind).bytes.length =
      some behind := by
    simpa using slice?_append front behind []
  rw [stop?, sliced, ← least?_map (monotone_sizeUpTo front behind), List.map_filterMap]
  exact congrArg least? (List.filterMap_congr fun suffix _ => find?_stopsAt suffix front behind)

/-- An end that is found is a boundary, whatever is searched. -/
theorem exists_of_stop? (found : stop? h piece width = some stop) :
    ∃ path more, piece = path ++ more ∧ path.bytes.length = stop := by
  cases sliced : slice? piece width piece.bytes.length with
  | none => simp [stop?, sliced, least?] at found
  | some behind =>
    obtain ⟨front, rest, whole, rfl, size⟩ := slice?_eq_some_iff.mp sliced
    obtain rfl : rest = [] := by
      by_contra full
      have more := length_bytes_pos full
      simp only [whole, bytes_append, List.length_append] at size
      omega
    rw [List.append_nil] at whole
    subst whole
    rw [stop?_append] at found
    obtain ⟨n, -, rfl⟩ := Option.map_eq_some_iff.mp found
    exact ⟨front ++ behind.take n, behind.drop n, by simp, rfl⟩

theorem slicedArtifact?_append (h : Layout) (front behind : Text) :
    slicedArtifact? h (front ++ behind) front.bytes.length =
      some ((least? (h.artifactSuffixes.filterMap fun suffix => shortestEnd? suffix behind)).map
        fun n => front ++ behind.take n) := by
  rw [slicedArtifact?, stop?_append]
  cases least? (h.artifactSuffixes.filterMap fun suffix => shortestEnd? suffix behind) with
  | none => rfl
  | some n =>
    have sliced := slice?_append [] (front ++ behind.take n) (behind.drop n)
    rw [List.nil_append, List.append_assoc, List.take_append_drop] at sliced
    exact congrArg (Option.map some) sliced

theorem slicedArtifact?_eq (mem : piece ∈ rooted h line) :
    slicedArtifact? h piece h.installRoot.text.bytes.length = some (artifact? h piece) := by
  obtain ⟨start, rest, rfl, spelled, width⟩ := exists_start (isPrefix_of_mem_rooted mem)
  rw [← length_bytes_of_folded spelled, slicedArtifact?_append, artifact?, ← width, List.drop_left' rfl]
  simp only [List.take_length_add_append]

/-! ## The paths of a line -/

theorem mapM_eq_some {α β : Type} {f : α → Option β} {g : α → β} {as : List α}
    (answers : ∀ a ∈ as, f a = some (g a)) : as.mapM f = some (as.map g) := by
  induction as with
  | nil => rfl
  | cons a as ih =>
    obtain ⟨first, others⟩ := List.forall_mem_cons.mp answers
    rw [List.mapM_cons, first, ih others]
    rfl

/-- Slicing a line finds the paths that it mentions. -/
theorem slicedPaths?_eq (h : Layout) (line : Text) : slicedPaths? h line = some (pathsIn h line) := by
  have found : ((rootSpans h (unescaped line)).map fun span =>
        slice? (unescaped line) span.1 span.2).mapM (fun slice => slice.bind fun piece =>
          (slicedArtifact? h piece h.installRoot.text.bytes.length).map (kept? h)) =
      some ((rooted h (unescaped line)).map fun piece => kept? h (artifact? h piece)) := by
    rw [map_slice?_rootSpans, List.mapM_map]
    refine mapM_eq_some fun piece mem => ?_
    simp [slicedArtifact?_eq mem]
  rw [List.mapM_map] at found
  rw [slicedPaths?, pathsIn_eq_filterMap]
  simp only [Function.comp_def] at found
  rw [found, Option.map_some, List.filterMap_map]
  rfl

/-- A text that is the path of an artifact, where `behind` is next. -/
structure Mention (h : Layout) (path behind : Text) : Prop where
  /-- It starts with the install root, as the host compares texts, and behind that ends in a suffix. -/
  rooted : ∃ start rest, path = start ++ rest ∧ folded h start = folded h h.installRoot.text ∧
    ∃ suffix ∈ h.nativeSuffixes ++ [h.sourceSuffix], suffix <:+ rest
  /-- It is no bytecode. -/
  source : ¬h.bytecodeSuffix <:+ path
  /-- No name goes on behind it, up to the next install root. -/
  stops : goesOn behind = false ∨ folded h h.installRoot.text <+: folded h behind

/-- A line mentions some paths, one behind the other. -/
def Mentions (h : Layout) : Text → List Path → Prop
  | _, [] => True
  | line, p :: ps => ∃ front behind, line = front ++ p.text ++ behind ∧ Mention h p.text behind ∧
      Mentions h behind ps

theorem folded_append (h : Layout) (s t : Text) : folded h (s ++ t) = folded h s ++ folded h t := by
  simp only [folded_eq_map, List.map_append]

/-- What is kept of a piece is mentioned there, whatever piece is next. -/
theorem exists_mention (starts : folded h h.installRoot.text <+: folded h piece)
    (kept : kept? h (artifact? h piece) = some p) : ∃ more, piece = p.text ++ more ∧
      ∀ tail, tail = [] ∨ folded h h.installRoot.text <+: folded h tail →
        Mention h p.text (more ++ tail) := by
  obtain ⟨found, source⟩ := kept?_eq_some_iff.mp kept
  obtain ⟨start, rest, rfl, spelled, width⟩ := exists_start starts
  obtain ⟨n, ⟨suffix, mem, ends⟩, text⟩ := exists_artifactEnds found
  rw [← width, List.drop_left' rfl] at ends
  rw [← width, List.take_length_add_append] at text
  refine ⟨rest.drop n, by rw [text, List.append_assoc, List.take_append_drop], fun tail next => ?_⟩
  constructor
  · refine ⟨start, rest.take n, text, spelled, suffix, ?_, ends.ends⟩
    have compiled : suffix ≠ h.bytecodeSuffix := by
      rintro rfl
      rw [text] at source
      exact source (ends.ends.trans (List.suffix_append start _))
    simpa [Layout.artifactSuffixes, compiled] using mem
  · exact source
  · cases behind : rest.drop n with
    | nil =>
      rcases next with rfl | root
      · exact .inl rfl
      · exact .inr root
    | cons c more =>
      have stops := ends.stops
      rw [behind] at stops
      exact .inl stops

/-- The pieces of a line are searched one behind the other. -/
theorem mentions_pieces (front : Text)
    (starts : ∀ piece ∈ pieces, folded h h.installRoot.text <+: folded h piece) :
    Mentions h (front ++ pieces.flatten)
      (pieces.filterMap fun piece => kept? h (artifact? h piece)) := by
  induction pieces generalizing front with
  | nil => trivial
  | cons piece pieces ih =>
    obtain ⟨first, later⟩ := List.forall_mem_cons.mp starts
    rw [List.flatten_cons, List.filterMap_cons]
    cases kept : kept? h (artifact? h piece) with
    | none =>
      rw [← List.append_assoc]
      exact ih _ later
    | some p =>
      obtain ⟨more, rfl, mention⟩ := exists_mention first kept
      refine ⟨front, more ++ pieces.flatten, by simp only [List.append_assoc], mention _ ?_,
        ih more later⟩
      -- Next is another piece, which starts with the root, or nothing.
      cases pieces with
      | nil => exact .inl rfl
      | cons next pieces =>
        rw [List.flatten_cons, folded_append]
        exact .inr ((later next List.mem_cons_self).trans (List.prefix_append _ _))

/-- A line can be sliced between two offsets, and the slice behind the text of the install root. -/
structure Sliceable (h : Layout) (line : Text) (span : Nat × Nat) : Prop where
  order : span.1 ≤ span.2
  within : span.2 ≤ line.bytes.length
  start : isBoundary line span.1 = true
  stop : isBoundary line span.2 = true
  root : ∃ piece, slice? line span.1 span.2 = some piece ∧
    h.installRoot.text.bytes.length ≤ piece.bytes.length ∧
      isBoundary piece h.installRoot.text.bytes.length = true

theorem sliceable_of_mem_rootSpans (mem : span ∈ rootSpans h line) : Sliceable h line span := by
  obtain ⟨piece, rooted, sliced⟩ := slice?_of_mem_rootSpans mem
  obtain ⟨front, rest, rfl, start, stop⟩ := slice?_eq_some_iff.mp sliced
  obtain ⟨root, behind, rfl, spelled, -⟩ := exists_start (isPrefix_of_mem_rooted rooted)
  have size := length_bytes_of_folded spelled
  constructor
  · simp [← start, ← stop]
  · simp [← stop]
  · rw [← start, List.append_assoc]
    exact isBoundary_append front _
  · rw [← stop]
    exact isBoundary_append _ rest
  · refine ⟨root ++ behind, sliced, ?_, ?_⟩
    · simp [← size]
    · rw [← size]
      exact isBoundary_append root behind

/-- A search of a line by offsets slices it and its pieces at boundaries, and no slice is refused. It finds
the paths that the line mentions, each of them a part of the line, and one behind the other. -/
theorem pathsIn_sound (h : Layout) (line : Text) :
    (∀ span ∈ rootSpans h (unescaped line), Sliceable h (unescaped line) span) ∧
      (∀ piece width stop, stop? h piece width = some stop →
        stop ≤ piece.bytes.length ∧ isBoundary piece stop = true) ∧
      slicedPaths? h line = some (pathsIn h line) ∧
      Mentions h (unescaped line) (pathsIn h line) := by
  refine ⟨fun span mem => sliceable_of_mem_rootSpans mem, fun piece width stop found => ?_,
    slicedPaths?_eq h line, ?_⟩
  · obtain ⟨path, more, rfl, rfl⟩ := exists_of_stop? found
    exact ⟨by simp, isBoundary_append path more⟩
  · rw [pathsIn_eq_filterMap]
    by_cases empty : h.installRoot.text = []
    · simp [rooted, empty, Mentions]
    obtain ⟨front, whole, -⟩ := exists_cut_rooted empty (unescaped line)
    have mentions : Mentions h (front ++ (rooted h (unescaped line)).flatten) _ :=
      mentions_pieces front fun piece mem => isPrefix_of_mem_rooted mem
    rwa [whole] at mentions

/-- A line that names two files behind letters of two bytes, one of them in another case. -/
def driveLine : Text :=
  "# \u00e9\u00fc c:\\\\PY\\\\a.py C:/py/\u00e9.pyd".toList

theorem pathsIn_sound_drive :
    (7, 18) ∈ rootSpans drive (unescaped driveLine) ∧
      Sliceable drive (unescaped driveLine) (7, 18) ∧
      stop? drive "c:\\PY\\a.py C:/".toList 5 = some 10 ∧
      isBoundary "c:\\PY\\a.py C:/".toList 10 = true ∧
      slicedPaths? drive driveLine = some [⟨"c:\\PY\\a.py".toList⟩, ⟨"C:/py/\u00e9.pyd".toList⟩] ∧
      Mentions drive (unescaped driveLine)
        [⟨"c:\\PY\\a.py".toList⟩, ⟨"C:/py/\u00e9.pyd".toList⟩] := by
  have mem : (7, 18) ∈ rootSpans drive (unescaped driveLine) := by decide +kernel
  have found : stop? drive "c:\\PY\\a.py C:/".toList 5 = some 10 := by decide +kernel
  have paths : pathsIn drive driveLine =
      [⟨"c:\\PY\\a.py".toList⟩, ⟨"C:/py/\u00e9.pyd".toList⟩] := by decide +kernel
  obtain ⟨spans, stops, sliced, mentions⟩ := pathsIn_sound drive driveLine
  rw [paths] at sliced mentions
  exact ⟨mem, spans _ mem, found, (stops _ _ _ found).2, sliced, mentions⟩

end NativeFreeze.ImportLog
