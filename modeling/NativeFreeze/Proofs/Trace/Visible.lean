import NativeFreeze.Proofs.Layout.Probe
import NativeFreeze.Proofs.Text.Cut
import NativeFreeze.Proofs.Text.Lines
import NativeFreeze.Proofs.Trace.Artifact
import NativeFreeze.Proofs.Trace.Groups

/-!
# Which files a log shows

A source file that is imported is reported on a line that names it twice. Of such a line the artifacts
are read that start with the install root, wherever the standard library and the packages are said to
lie. So the file is read back exactly if its path starts with the root and goes on as one artifact.
-/

namespace NativeFreeze.ImportLog

variable {h : Layout} {root rest line name more : Text} {p : Path}

/-- What a verbose interpreter prints when a source file matches what it looks for. -/
def matchLine (p : Path) : Text :=
  "# ".toList ++ p.text ++ " matches ".toList ++ p.text

/-- A match, and the import that it leads to. -/
def matchLog (p : Path) (line : Text) : Text :=
  matchLine p ++ '\n' :: line ++ ['\n']

/-- A path without blanks and backslashes, which stands in a log as it is. -/
structure Plain (p : Path) : Prop where
  solid : ∀ c ∈ p.text, Text.isBlank c = false
  straight : '\\' ∉ p.text

/-- A path that starts with the install root and goes on as one artifact. -/
def Visible (h : Layout) (p : Path) : Prop :=
  h.installRoot.text ≠ [] ∧ ∃ rest, p.text = h.installRoot.text ++ rest ∧ IsArtifact h rest

/-! ## The pieces of a match -/

/-- A path that starts with a word which does not occur in it again: a match has the path as a piece
twice, the first time with what follows up to the second, and else only pieces without dots. -/
theorem exists_pieces (blank : ' ' ∉ root) (full : root ≠ []) (once : Text.holds root rest = false) :
    ∃ front word others, '.' ∉ word ∧ (∀ piece ∈ front ++ others, '.' ∉ piece) ∧
      (Text.cuts root 0 (matchLine ⟨root ++ rest⟩)).tail =
        front ++ [root ++ rest ++ ' ' :: word] ++ (others ++ [root ++ rest]) := by
  obtain ⟨start, front, before⟩ :=
    List.exists_cons_of_ne_nil (Text.cuts_ne_nil root 0 "# ".toList)
  obtain ⟨word, others, between⟩ :=
    List.exists_cons_of_ne_nil (Text.cuts_ne_nil root 0 "matches ".toList)
  have alone : Text.cuts root 0 (root ++ rest) = [] :: [root ++ rest] := by
    rw [Text.cuts_append full, Text.cuts_eq_singleton once]
    rfl
  have first : Text.cuts root 0 ((root ++ rest ++ " matches".toList) ++ [' ']) =
      [] :: (root ++ rest ++ ' ' :: word) :: others := by
    have text : (root ++ rest ++ " matches".toList) ++ [' '] =
        root ++ (rest ++ ' ' :: "matches ".toList) := by simp
    rw [text, Text.cuts_append full, Text.cuts_append_of_holds once blank, Text.cuts_cons blank full,
      between]
    simp
  have both : Text.cuts root 0 ((root ++ rest ++ " matches".toList) ++ ' ' :: (root ++ rest)) =
      [] :: ((root ++ rest ++ ' ' :: word) :: (others ++ [root ++ rest])) := by
    rw [Text.cuts_append_cons blank full alone (Nat.zero_le _), first]
    rfl
  have line : matchLine ⟨root ++ rest⟩ =
      ['#'] ++ ' ' :: ((root ++ rest ++ " matches".toList) ++ ' ' :: (root ++ rest)) := by
    simp [matchLine]
  have all : Text.cuts root 0 (matchLine ⟨root ++ rest⟩) =
      start :: (front ++ [root ++ rest ++ ' ' :: word] ++ (others ++ [root ++ rest])) := by
    rw [line, Text.cuts_append_cons blank full both (Nat.zero_le _), List.append_assoc front]
    exact congrArg (· ++ _) before
  have dotless (t : Text) (dot : '.' ∉ t) (piece) (mem : piece ∈ Text.cuts root 0 t) :
      '.' ∉ piece := fun inside => dot <| by
    rw [← Text.flatten_cuts root 0 t]
    exact List.mem_flatten.mpr ⟨piece, mem, inside⟩
  have behind := dotless "matches ".toList (by decide)
  rw [between] at behind
  refine ⟨front, word, others, behind word List.mem_cons_self, fun piece mem => ?_,
    by rw [all]; rfl⟩
  rcases List.mem_append.mp mem with mem | mem
  · exact dotless "# ".toList (by decide) piece (before ▸ List.mem_cons_of_mem _ mem)
  · exact behind piece (List.mem_cons_of_mem _ mem)

/-- The path that is read at the start of a piece. -/
def pathAt? (h : Layout) (piece : Text) : Option Path :=
  match artifact? h piece with
  | some p => if Text.endsWith h.bytecodeSuffix p then none else some ⟨p⟩
  | none => none

theorem rooted_eq (sensitive : h.caseInsensitive = false) (full : h.installRoot.text ≠ [])
    (line : Text) : rooted h line = (Text.cuts h.installRoot.text 0 line).tail := by
  simp only [rooted, folded, sensitive, List.isEmpty_iff, full, if_false, Bool.false_eq_true]
  rfl

theorem isPrefix_of_pathAt? (dotted : Dotted h) {piece : Text}
    (starts : h.installRoot.text <+: piece) (read : pathAt? h piece = some p) :
    h.installRoot.text <+: p.text := by
  unfold pathAt? at read
  split at read
  · rename_i s found
    split at read
    · cases read
    · obtain rfl := Option.some.inj read
      obtain ⟨n, -, rfl⟩ := (artifact?_eq_some_iff dotted).mp found
      exact List.prefix_take_iff.mpr ⟨starts, by omega⟩
  · cases read

theorem pathAt?_eq_whole_iff (dotted : Dotted h) (apart : goesOn more = false)
    (source : Text.endsWith h.bytecodeSuffix (h.installRoot.text ++ rest) = false) :
    pathAt? h (h.installRoot.text ++ rest ++ more) = some ⟨h.installRoot.text ++ rest⟩ ↔
      IsArtifact h rest := by
  rw [← artifact?_eq_whole_iff dotted apart, pathAt?]
  constructor
  · intro read
    split at read
    · rename_i s found
      split at read
      · cases read
      · obtain rfl := congrArg Path.text (Option.some.inj read)
        exact found
    · cases read
  · intro found
    rw [found]
    simp [source]

/-! ## Reading a match -/

theorem unescaped_matchLine (plain : Plain p) : unescaped (matchLine p) = matchLine p := by
  refine Text.replace_eq_self (Text.holds_eq_false (c := '\\') List.mem_cons_self ?_)
  simp [matchLine, plain.straight]

theorem pathsIn_matchLine (plain : Plain p) : pathsIn h (matchLine p) =
    (rooted h (matchLine p)).filterMap (pathAt? h) := by
  rw [pathsIn, unescaped_matchLine plain]
  rfl

theorem not_mem_of_isBlank (plain : Plain p) {c : Char} (blank : Text.isBlank c = true) :
    c ∉ p.text := by
  intro mem
  simp [plain.solid c mem] at blank

/-- Of a match with the root in front of its path, the path is read twice or not at all. -/
theorem exists_pathsIn_matchLine (dotted : Dotted h) (sensitive : h.caseInsensitive = false)
    (full : h.installRoot.text ≠ []) (plain : Plain p) (starts : p.text = h.installRoot.text ++ rest)
    (once : Text.holds h.installRoot.text rest = false) :
    ∃ word, '.' ∉ word ∧
      pathsIn h (matchLine p) = [p.text ++ ' ' :: word, p.text].filterMap (pathAt? h) := by
  have blank : ' ' ∉ h.installRoot.text := by
    have none : ' ' ∉ p.text := not_mem_of_isBlank plain (by decide)
    simp_all
  obtain ⟨front, word, others, plainly, dotless, pieces⟩ := exists_pieces blank full once
  have nothing (pieces : List Text) (dotless : ∀ piece ∈ pieces, '.' ∉ piece) :
      pieces.filterMap (pathAt? h) = [] := by
    refine List.filterMap_eq_nil_iff.mpr fun piece mem => ?_
    rw [pathAt?, artifact?_eq_none dotted (dotless piece mem)]
  have before := nothing front fun piece mem => dotless piece (List.mem_append_left _ mem)
  have between := nothing others fun piece mem => dotless piece (List.mem_append_right _ mem)
  refine ⟨word, plainly, ?_⟩
  obtain ⟨text⟩ := p
  obtain rfl : text = h.installRoot.text ++ rest := starts
  rw [pathsIn_matchLine plain, rooted_eq sensitive full, pieces]
  simp only [List.filterMap_append, before, between, List.nil_append]
  exact List.filterMap_append.symm

theorem trimEnd_matchLine (plain : Plain p) (full : p.text ≠ []) :
    Text.trimEnd (· == '\r') (matchLine p) = matchLine p := by
  obtain ⟨s, c, text⟩ := (List.eq_nil_or_concat p.text).resolve_left full
  have none : '\r' ∉ p.text := not_mem_of_isBlank plain (by decide)
  have letter : (c == '\r') = false := by
    rw [beq_eq_false_iff_ne]
    rintro rfl
    simp [text] at none
  rw [Text.trimEnd, matchLine, text]
  simp [letter]

theorem lines_matchLog (plain : Plain p) (full : p.text ≠ []) (single : '\n' ∉ line) :
    lines (matchLog p line) = [matchLine p, Text.trimEnd (· == '\r') line] := by
  have context : '\n' ∉ matchLine p := by
    have none : '\n' ∉ p.text := not_mem_of_isBlank plain (by decide)
    simp [matchLine, none]
  have split : Text.split '\n' (matchLog p line) = [matchLine p, line] ++ [[]] := by
    have text : matchLog p line = matchLine p ++ '\n' :: (line ++ '\n' :: []) := by
      simp [matchLog]
    rw [text, Text.split_append, Text.split_append, Text.split_eq_singleton context,
      Text.split_eq_singleton single]
    rfl
  rw [lines, Text.lines_of_split split]
  simp [trimEnd_matchLine plain full]

theorem imported?_matchLine (p : Path) : imported? (matchLine p) = none :=
  rfl

theorem parse_matchLog (plain : Plain p) (full : p.text ≠ []) (single : '\n' ∉ line)
    (imports : imported? (Text.trimEnd (· == '\r') line) = some name) (shim : h.ffiShim = none) :
    parse h (matchLog p line) = distinct (pathsIn h (matchLine p)) := by
  rw [parse, lines_matchLog plain full single]
  simp [parseLines, imported?_matchLine, imports, groupPaths, shim]

theorem distinct_pair (p : Path) : distinct [p, p] = [p] := by
  simp [distinct, Path.same]

section Read
variable (dotted : Dotted h) (sensitive : h.caseInsensitive = false) (plain : Plain p)
include dotted sensitive plain

/-- What is read of a match starts with the install root. -/
theorem isPrefix_of_mem_pathsIn {q : Path} (read : q ∈ pathsIn h (matchLine p)) :
    h.installRoot.text <+: q.text := by
  by_cases full : h.installRoot.text = []
  · exact full ▸ List.nil_prefix
  · rw [pathsIn_matchLine plain, rooted_eq sensitive full] at read
    obtain ⟨piece, mem, read⟩ := List.mem_filterMap.mp read
    exact isPrefix_of_pathAt? dotted (Text.isPrefix_of_mem_tail mem) read

variable (source : Text.endsWith h.bytecodeSuffix p.text = false)
  (once : ∀ rest, p.text = h.installRoot.text ++ rest →
    Text.holds h.installRoot.text rest = false)
include source once

/-- Of a match with a visible path, the path is read twice. -/
theorem pathsIn_of_visible (visible : Visible h p) : pathsIn h (matchLine p) = [p, p] := by
  obtain ⟨full, rest, starts, artifact⟩ := visible
  obtain ⟨word, -, read⟩ :=
    exists_pathsIn_matchLine dotted sensitive full plain starts (once rest starts)
  obtain ⟨text⟩ := p
  obtain rfl : text = h.installRoot.text ++ rest := starts
  have longer : pathAt? h (h.installRoot.text ++ rest ++ ' ' :: word) =
      some ⟨h.installRoot.text ++ rest⟩ :=
    (pathAt?_eq_whole_iff dotted rfl source).mpr artifact
  have whole : pathAt? h (h.installRoot.text ++ rest ++ []) = some ⟨h.installRoot.text ++ rest⟩ :=
    (pathAt?_eq_whole_iff dotted rfl source).mpr artifact
  rw [List.append_nil] at whole
  rw [read, List.filterMap_cons_some longer, List.filterMap_cons_some whole, List.filterMap_nil]

/-- A path that is read of its match is visible. -/
theorem visible_of_mem_pathsIn (read : p ∈ pathsIn h (matchLine p)) : Visible h p := by
  have full : h.installRoot.text ≠ [] := by
    intro empty
    rw [pathsIn_matchLine plain, rooted, empty] at read
    exact absurd read List.not_mem_nil
  obtain ⟨rest, starts⟩ := isPrefix_of_mem_pathsIn dotted sensitive plain read
  obtain ⟨word, -, pieces⟩ :=
    exists_pathsIn_matchLine dotted sensitive full plain starts.symm (once rest starts.symm)
  refine ⟨full, rest, starts.symm, ?_⟩
  obtain ⟨text⟩ := p
  obtain rfl : h.installRoot.text ++ rest = text := starts
  rw [pieces, List.mem_filterMap] at read
  obtain ⟨piece, mem, read⟩ := read
  rcases List.mem_cons.mp mem with rfl | mem
  · exact (pathAt?_eq_whole_iff dotted rfl source).mp read
  · obtain rfl := List.mem_singleton.mp mem
    have whole : pathAt? h (h.installRoot.text ++ rest ++ []) = some ⟨h.installRoot.text ++ rest⟩ := by
      rwa [List.append_nil]
    exact (pathAt?_eq_whole_iff dotted rfl source).mp whole

end Read

/-! ## Probed layouts -/

/-- On a host that tells paths apart by case, an import that a source file matches shows what starts
with the install root, wherever the subtrees lie that files are classified by. If the root does not
stand in the path again, the log is read as this one path exactly if the path is the root followed by
the text of one artifact. -/
theorem parse_matchLog_iff {output : Text} (probed : Layout.ofProbe output = .ok h)
    (sensitive : h.caseInsensitive = false) (plain : Plain p) (source : h.sourceSuffix <:+ p.text)
    (single : '\n' ∉ line) (imports : imported? (Text.trimEnd (· == '\r') line) = some name) :
    (p ∈ parse h (matchLog p line) → h.installRoot.text <+: p.text) ∧
      ((∀ rest, p.text = h.installRoot.text ++ rest →
          Text.holds h.installRoot.text rest = false) →
        (parse h (matchLog p line) = [p] ↔ Visible h p)) := by
  obtain ⟨dotted, shim, python, bytecode⟩ : Dotted h ∧ h.ffiShim = none ∧
      h.sourceSuffix = ".py".toList ∧ h.bytecodeSuffix = ".pyc".toList := by
    cases Layout.probed_of_ofProbe probed with
    | windows => cases sensitive
    | posix =>
      have dotted : ∀ suffix ∈ [".so", ".pyc", ".py"].map String.toList,
          suffix.head? = some '.' ∧ '.' ∉ suffix.tail := by decide
      exact ⟨dotted, rfl, rfl, rfl⟩
  have last : ".py".toList <:+ p.text := python ▸ source
  have full : p.text ≠ [] := by
    intro empty
    simp [empty] at last
  have plainly : Text.endsWith h.bytecodeSuffix p.text = false := by
    obtain ⟨front, text⟩ := last
    rw [← text, bytecode, Text.endsWith, List.isSuffixOf, List.reverse_append]
    rfl
  rw [parse_matchLog plain full single imports shim]
  refine ⟨fun read => ?_, fun once => ⟨fun read => ?_, fun visible => ?_⟩⟩
  · exact isPrefix_of_mem_pathsIn dotted sensitive plain (distinct_subset _ read)
  · have mem : p ∈ distinct (pathsIn h (matchLine p)) := read ▸ List.mem_singleton_self p
    exact visible_of_mem_pathsIn dotted sensitive plain plainly once (distinct_subset _ mem)
  · rw [pathsIn_of_visible dotted sensitive plain plainly once visible, distinct_pair]

/-- What the probe prints for an install root, the base installation being in `/usr`. -/
def posixOutput (root : Text) : Text :=
  Layout.probeOutput [
    ("os", "posix".toList),
    ("executable", root ++ "/bin/python3".toList),
    ("install_root", root),
    ("base_prefix", "/usr".toList),
    ("stdlib", "/usr/lib/python3.11".toList),
    ("platstdlib", root ++ "/lib/python3.11".toList),
    ("purelib", root ++ "/lib/python3.11/site-packages".toList),
    ("include", "/usr/include/python3.11".toList),
    ("libdir", "/usr/lib".toList),
    ("version", "3.11".toList),
    ("ext_suffix", ".so".toList)]

/-- The layout that this describes. -/
def posixHost (root : Text) : Layout :=
  .probedPosix ⟨root⟩ "3.11".toList ".so".toList ⟨root ++ "/bin/python3".toList⟩
    ⟨"/usr/lib/python3.11".toList⟩ ⟨root ++ "/lib/python3.11".toList⟩
    ⟨root ++ "/lib/python3.11/site-packages".toList⟩ ⟨"/usr/include/python3.11".toList⟩
    ⟨"/usr/lib".toList⟩

/-- The base installation. -/
def baseRoot : Text :=
  "/usr".toList

/-- A virtual environment. -/
def venvRoot : Text :=
  "/venv".toList

/-- A module of the standard library. -/
def osModule : Path :=
  ⟨"/usr/lib/python3.11/os.py".toList⟩

/-- The line that reports its import. -/
def osImport : Text :=
  "import 'os' # x".toList

theorem plain_osModule : Plain osModule where
  solid := by
    have all : osModule.text.all (fun c => !Text.isBlank c) = true := by decide +kernel
    simpa using all
  straight := by decide +kernel

/-- Without a virtual environment, the install root is the base installation. -/
theorem parse_matchLog_iff_base : Visible (posixHost baseRoot) osModule := by
  have probed : Layout.ofProbe (posixOutput baseRoot) = .ok (posixHost baseRoot) := by decide +kernel
  have imports : imported? (Text.trimEnd (· == '\r') osImport) = some "os".toList := by
    decide +kernel
  refine ((parse_matchLog_iff probed rfl plain_osModule (by decide) (by decide) imports).2
    fun rest starts => ?_).mp (by decide +kernel)
  obtain rfl : rest = "/lib/python3.11/os.py".toList :=
    List.append_cancel_left (starts.symm.trans (by decide))
  decide +kernel

/-- In a virtual environment the standard library lies outside the install root. -/
theorem parse_matchLog_venv :
    ∃ h, Layout.ofProbe (posixOutput venvRoot) = .ok h ∧ h.caseInsensitive = false ∧
      Plain osModule ∧ h.sourceSuffix <:+ osModule.text ∧ h.classify? osModule = some .standard ∧
      parse h (matchLog osModule osImport) = [] :=
  ⟨posixHost venvRoot, by decide +kernel, rfl, plain_osModule, by decide, by decide +kernel,
    by decide +kernel⟩

end NativeFreeze.ImportLog
