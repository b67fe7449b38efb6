import NativeFreeze.Proofs.Layout.Innermost
import NativeFreeze.Proofs.Trace.Visible

/-!
# Reading a log back

A log that reports a match for each file of an import, and then the import, is read import by import.
Of each file its shortest part is shown that an artifact suffix ends behind the root; this is the file
itself unless a directory on the way is named like an artifact.
-/

namespace NativeFreeze.ImportLog

variable {h : Layout} {root p q : Path} {rest word version ext : Text}

/-! ## What is shown of a path -/

/-- The path `q` is the shortest part of `p` that an artifact suffix ends behind the install root where
no name goes on, and it is not bytecode. -/
structure Shows (h : Layout) (p q : Path) : Prop where
  shortest : ∃ n, IsLeast {n | ArtifactEnds h (p.text.drop h.installRoot.text.length) n} n ∧
    q.text = p.text.take (h.installRoot.text.length + n)
  source : Text.endsWith h.bytecodeSuffix q.text = false

theorem pathAt?_eq_some_iff (dotted : Dotted h) : pathAt? h p.text = some q ↔ Shows h p q := by
  obtain ⟨text⟩ := q
  unfold pathAt?
  constructor
  · intro read
    split at read
    · rename_i s found
      split at read
      · cases read
      · rename_i source
        obtain rfl := congrArg Path.text (Option.some.inj read)
        exact ⟨(artifact?_eq_some_iff dotted).mp found, by simpa using source⟩
    · cases read
  · rintro ⟨shortest, source⟩
    have found : artifact? h p.text = some text := (artifact?_eq_some_iff dotted).mpr shortest
    rw [found]
    simp only [source, Bool.false_eq_true, if_false]

/-- A path whose text behind the root is one artifact is shown in full, unless it is bytecode. -/
theorem pathAt?_of_isArtifact (dotted : Dotted h) (starts : h.installRoot.text <+: p.text)
    (whole : IsArtifact h (p.text.drop h.installRoot.text.length)) :
    pathAt? h p.text = if Text.endsWith h.bytecodeSuffix p.text then none else some p := by
  have found : artifact? h p.text = some p.text := by
    refine (artifact?_eq_some_iff dotted).mpr ⟨_, whole, ?_⟩
    rw [List.length_drop, Nat.add_sub_cancel' starts.length_le, List.take_length]
  rw [pathAt?, found]

/-- What follows a blank does not matter if it has no dots. -/
theorem pathAt?_append_blank (dotted : Dotted h) (free : ∀ suffix ∈ h.artifactSuffixes, ' ' ∉ suffix)
    (plain : '.' ∉ word) : pathAt? h (h.installRoot.text ++ rest ++ ' ' :: word) =
      pathAt? h (h.installRoot.text ++ rest) := by
  have same : artifact? h (h.installRoot.text ++ rest ++ ' ' :: word) =
      artifact? h (h.installRoot.text ++ rest) := by
    apply Option.ext
    intro s
    rw [artifact?_eq_some_iff dotted, artifact?_eq_some_iff dotted, List.append_assoc,
      List.drop_left' rfl, List.drop_left' rfl]
    simp only [artifactEnds_append_cons dotted rfl free plain]
    refine exists_congr fun n => and_congr_right fun least => ?_
    obtain ⟨_, _, ends⟩ := id least.1
    have within := ends.within
    rw [← List.append_assoc, List.take_append_of_le_length (by simpa using within)]
  rw [pathAt?, same, pathAt?]

/-! ## Logs of imports -/

/-- An import: the files that are reported to match, and the line that reports the import. -/
structure Import where
  files : List Path
  line : Text
  name : Text
  single : '\n' ∉ line
  imports : lineImport? line = some name

/-- What a verbose interpreter prints for an import. -/
def Import.text (i : Import) : Text :=
  broken (i.files.map matchLine ++ [i.line])

/-- What a verbose interpreter prints for some imports, one after the other. -/
def importLog (is : List Import) : Text :=
  is.flatMap Import.text

/-- A file that is spelled starting with the root, which does not stand in it again, and has neither
blanks nor backslashes. -/
structure Listed (root p : Path) : Prop where
  plain : Plain p
  starts : root.text <+: p.text
  once : Text.holds root.text (p.text.drop root.text.length) = false

instance (p : Path) : Decidable (Plain p) :=
  decidable_of_iff (p.text.all (fun c => !Text.isBlank c) = true ∧ '\\' ∉ p.text)
    ⟨fun h => ⟨by simpa using h.1, h.2⟩, fun h => ⟨by simpa using h.solid, h.straight⟩⟩

instance (root p : Path) : Decidable (Listed root p) :=
  decidable_of_iff (Plain p ∧ root.text <+: p.text ∧
      Text.holds root.text (p.text.drop root.text.length) = false)
    ⟨fun h => ⟨h.1, h.2.1, h.2.2⟩, fun h => ⟨h.plain, h.starts, h.once⟩⟩

theorem lineImport?_matchLine (plain : Plain p) (full : p.text ≠ []) :
    lineImport? (matchLine p) = none := by
  rw [lineImport?, trimEnd_matchLine plain full]
  rfl

theorem newline_not_mem_matchLine (plain : Plain p) : '\n' ∉ matchLine p := by
  have none : '\n' ∉ p.text := not_mem_of_isBlank plain (by decide)
  simp [matchLine, none]

/-- The matches of an import and its line are a group. -/
def Import.group (i : Import) (plain : ∀ p ∈ i.files, Plain p ∧ p.text ≠ []) : Group where
  context := i.files.map matchLine
  line := i.line
  name := i.name
  single l hl := by
    rcases List.mem_append.mp hl with mem | mem
    · obtain ⟨p, hp, rfl⟩ := List.mem_map.mp mem
      exact newline_not_mem_matchLine (plain p hp).1
    · exact List.mem_singleton.mp mem ▸ i.single
  waits l hl := by
    obtain ⟨p, hp, rfl⟩ := List.mem_map.mp hl
    exact lineImport?_matchLine (plain p hp).1 (plain p hp).2
  imports := i.imports

/-- A path that is mentioned twice is kept once. -/
theorem foldl_keep_twice (f : Path → Option Path) (ps seen : List Path) :
    (ps.flatMap fun p => (f p).toList ++ (f p).toList).foldl keep seen =
      (ps.filterMap f).foldl keep seen := by
  induction ps generalizing seen with
  | nil => rfl
  | cons p ps ih =>
    rw [List.flatMap_cons, List.foldl_append, ih]
    cases hp : f p with
    | none => simp [hp]
    | some q =>
      have kept : ∃ r ∈ keep seen q, q.same r = true :=
        exists_same_foldl_keep (List.mem_singleton_self q) seen
      rw [List.filterMap_cons_some hp, List.foldl_cons]
      simp only [Option.toList_some, List.singleton_append, List.foldl_cons, List.foldl_nil,
        keep_of_exists_same kept]

section Listed
variable (dotted : Dotted h) (sensitive : h.caseInsensitive = false)
  (free : ∀ suffix ∈ h.artifactSuffixes, ' ' ∉ suffix) (full : h.installRoot.text ≠ [])
include dotted sensitive free full

/-- Of a match its path is read twice. -/
theorem pathsIn_matchLine_of_listed (listed : Listed h.installRoot p) :
    pathsIn h (matchLine p) = (pathAt? h p.text).toList ++ (pathAt? h p.text).toList := by
  obtain ⟨rest, starts⟩ := listed.starts
  have once := listed.once
  rw [← starts, List.drop_left' rfl] at once
  obtain ⟨word, plain, read⟩ :=
    exists_pathsIn_matchLine dotted sensitive full listed.plain starts.symm once
  have longer : pathAt? h (p.text ++ ' ' :: word) = pathAt? h p.text := by
    rw [← starts, pathAt?_append_blank dotted free plain]
  rw [read, List.filterMap_cons, List.filterMap_cons, longer]
  cases pathAt? h p.text <;> rfl

/-- An import is read as what is shown of its files, each path once. -/
theorem parse_import (i : Import) (listed : ∀ p ∈ i.files, Listed h.installRoot p)
    (shim : h.ffiShim = none) : parse h i.text =
      (i.files.filterMap fun p => pathAt? h p.text).eraseDupsBy Path.same := by
  have plain (p : Path) (hp : p ∈ i.files) : Plain p ∧ p.text ≠ [] := by
    refine ⟨(listed p hp).plain, fun empty => full ?_⟩
    have starts := (listed p hp).starts
    rwa [empty, List.prefix_nil] at starts
  have read (p : Path) (hp : p ∈ i.files) : pathsIn h (Text.trimEnd (· == '\r') (matchLine p)) =
      (pathAt? h p.text).toList ++ (pathAt? h p.text).toList := by
    rw [trimEnd_matchLine (plain p hp).1 (plain p hp).2]
    exact pathsIn_matchLine_of_listed dotted sensitive free full (listed p hp)
  have mentioned : (i.group plain).mentioned h =
      i.files.flatMap fun p => (pathAt? h p.text).toList ++ (pathAt? h p.text).toList := by
    rw [Group.mentioned, Import.group, List.map_map, List.flatMap_map]
    exact List.flatMap_congr read
  have group := (i.group plain).parse_text h
  rw [Group.found, mentioned, shim, Option.toList_none, ite_self, List.append_nil] at group
  rw [← distinct_eq_eraseDupsBy] at group ⊢
  exact group.trans (congrArg List.reverse (foldl_keep_twice _ i.files []))

theorem parse_imports (shim : h.ffiShim = none) (is : List Import)
    (listed : ∀ i ∈ is, ∀ p ∈ i.files, Listed h.installRoot p) : parse h (importLog is) =
      is.flatMap fun i => (i.files.filterMap fun p => pathAt? h p.text).eraseDupsBy Path.same := by
  induction is with
  | nil => rfl
  | cons i is ih =>
    obtain ⟨first, later⟩ := List.forall_mem_cons.mp listed
    have closed : Closed i.text := closed_broken (i.files.map matchLine) i.single i.imports
    rw [importLog, List.flatMap_cons, parse_append_of_closed closed,
      parse_import dotted sensitive free full i first shim, List.flatMap_cons]
    exact congrArg _ (ih later)

end Listed

/-! ## POSIX layouts -/

theorem dotted_posix (root : Path) (version ext : Text) : Dotted (.posix root version ext) := by
  have all : ∀ suffix ∈ [".so", ".pyc", ".py"].map String.toList,
      suffix.head? = some '.' ∧ '.' ∉ suffix.tail := by decide
  exact all

theorem blank_not_mem_posix (root : Path) (version ext : Text) :
    ∀ suffix ∈ (Layout.posix root version ext).artifactSuffixes, ' ' ∉ suffix := by
  have all : ∀ suffix ∈ [".so", ".pyc", ".py"].map String.toList, ' ' ∉ suffix := by decide
  exact all

/-- On a POSIX layout with an absolute root the log of some imports is read import by import: each
yields what is shown of its files, once and in order of first mention. If each file is an artifact as
a whole, an import yields its files themselves, less those of bytecode. -/
theorem parse_importLog (absolute : root.isAbsolute = true) (is : List Import)
    (listed : ∀ i ∈ is, ∀ p ∈ i.files, Listed root p) :
    (∃ shown : Path → Option Path,
      (∀ p q, shown p = some q ↔ Shows (.posix root version ext) p q) ∧
        parse (.posix root version ext) (importLog is) =
          is.flatMap fun i => (i.files.filterMap shown).eraseDupsBy Path.same) ∧
      ((∀ i ∈ is, ∀ p ∈ i.files,
          IsArtifact (.posix root version ext) (p.text.drop root.text.length)) →
        parse (.posix root version ext) (importLog is) = is.flatMap fun i =>
          (i.files.filter fun p => !Text.endsWith ".pyc".toList p.text).eraseDupsBy Path.same) := by
  have full : root.text ≠ [] := by
    intro empty
    simp [Path.isAbsolute, empty] at absolute
  have dotted := dotted_posix root version ext
  have read := parse_imports dotted rfl (blank_not_mem_posix root version ext) full rfl is listed
  refine ⟨⟨fun p => pathAt? (.posix root version ext) p.text, fun p q => pathAt?_eq_some_iff dotted,
    read⟩, fun whole => ?_⟩
  rw [read]
  refine List.flatMap_congr fun i hi => congrArg (List.eraseDupsBy Path.same) ?_
  rw [← List.filterMap_eq_filter]
  refine List.filterMap_congr fun p hp => ?_
  refine (pathAt?_of_isArtifact dotted (listed i hi p hp).starts (whole i hi p hp)).trans ?_
  rw [Option.guard]
  change (if Text.endsWith ".pyc".toList p.text = true then none else some p) = _
  cases Text.endsWith ".pyc".toList p.text <;> rfl

/-- The root of an installation. -/
def pyRoot : Path :=
  ⟨"/py".toList⟩

/-- An import of a package, one file of which is matched twice. -/
def packageImport : Import where
  files := ["/py/lib/json/__init__.py", "/py/lib/json/__pycache__/a.pyc", "/py/lib/json/a.py",
    "/py/lib//json/__init__.py"].map fun p => ⟨p.toList⟩
  line := "import 'json' # x".toList
  name := "json".toList
  single := by decide
  imports := by decide +kernel

/-- An import of a module in a directory that is named like a module. -/
def nestedImport : Import where
  files := [⟨"/py/x.py/y.py".toList⟩]
  line := "import y # x".toList
  name := "y".toList
  single := by decide
  imports := by decide +kernel

/-- An import of a module below a directory whose name starts like the root's. -/
def recurringImport : Import where
  files := [⟨"/py/lib/python3.11/os.py".toList⟩]
  line := "import 'os' # x".toList
  name := "os".toList
  single := by decide
  imports := by decide +kernel

theorem parse_importLog_package :
    parse (.posix pyRoot "3.11".toList ".so".toList) (importLog [packageImport]) =
      ["/py/lib/json/__init__.py", "/py/lib/json/a.py"].map fun p => ⟨p.toList⟩ := by
  have listed : ∀ i ∈ [packageImport], ∀ p ∈ i.files, Listed pyRoot p := by decide +kernel
  have whole : ∀ i ∈ [packageImport], ∀ p ∈ i.files,
      IsArtifact (.posix pyRoot "3.11".toList ".so".toList) (p.text.drop pyRoot.text.length) := by
    decide +kernel
  exact ((parse_importLog rfl [packageImport] listed).2 whole).trans (by decide +kernel)

/-- The files of an import are sources below the root, without blanks, quotes and backslashes. -/
def Import.Regular (i : Import) : Prop :=
  ∀ p ∈ i.files, Plain p ∧ '\'' ∉ p.text ∧ '"' ∉ p.text ∧ pyRoot.text <+: p.text ∧
    pyRoot.Contains p ∧ ¬p.Contains pyRoot ∧ ".py".toList <:+ p.text

instance (i : Import) : Decidable i.Regular :=
  inferInstanceAs (Decidable (∀ p ∈ i.files, _))

/-- An import is read back as its files, less those of bytecode. -/
def Import.ReadBack (i : Import) : Prop :=
  parse (.posix pyRoot "3.11".toList ".so".toList) (importLog [i]) =
    (i.files.filter fun p => !Text.endsWith ".pyc".toList p.text).eraseDupsBy Path.same

instance (i : Import) : Decidable i.ReadBack :=
  inferInstanceAs (Decidable (_ = _))

/-- A path is cut where the name of a directory on the way ends like an artifact, and where the text of
the root stands in it again. -/
theorem parse_importLog_nested : nestedImport.Regular ∧ ¬nestedImport.ReadBack ∧
    recurringImport.Regular ∧ ¬recurringImport.ReadBack := by
  decide +kernel

end NativeFreeze.ImportLog
