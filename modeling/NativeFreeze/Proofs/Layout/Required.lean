import NativeFreeze.Proofs.Bundle.Entries
import NativeFreeze.Proofs.Layout.Probe
import NativeFreeze.Proofs.Path.Extension
import NativeFreeze.Trace.ImportLog

/-!
# The files that are always needed

Whatever a log shows, the files that an interpreter always needs are to be in the plan of its bundle.
On a POSIX system they are put where the standard library and the native libraries are said to lie, so
they are in it, unless a subtree's root is such a file itself. On Windows they stay below the install
root, and one of them is lost where neither the standard library nor the packages lie there.
-/

namespace NativeFreeze

open NativeFreeze.Path

variable {h : Layout} {p : Path} {back : List Path} {name : Text} {kind : Subtree}

namespace Layout

/-! ## Where a path falls -/

/-- Whether a path falls under a subtree, be it tried earlier or not. -/
def isUnder (h : Layout) (kind : Subtree) (p : Path) : Bool :=
  (h.segmentsBelow? p (h.root kind)).isSome

/-- Whether a path is the root of a subtree. -/
def isRoot (h : Layout) (p : Path) : Bool :=
  Subtree.all.any fun kind => h.segmentsBelow? p (h.root kind) == some []

theorem isSome_classify?_iff : (h.classify? p).isSome = true ↔ ∃ kind, h.isUnder kind p = true := by
  rw [classify?, List.find?_isSome]
  refine exists_congr fun kind => and_iff_right ?_
  cases kind <;> decide

theorem share_ne_nothing (classified : (h.classify? p).isSome = true)
    (inside : h.isRoot p = false) : BundlePlan.share h p ≠ .nothing := by
  obtain ⟨kind, found⟩ := Option.isSome_iff_exists.mp classified
  have under := List.find?_some (show Subtree.all.find? _ = some kind from found)
  have below : h.segmentsBelow? p (h.root kind) ≠ some [] := by
    have all := List.any_eq_false.mp inside kind (List.mem_of_find?_eq_some found)
    simpa using all
  rw [BundlePlan.share, found]
  dsimp only
  split
  · simp
  · split <;> simp_all

/-- A path is in the plan of every log: it falls under a subtree, is not the root of one, and the plan
has the entry that it calls for. -/
structure Planned (h : Layout) (p : Path) : Prop where
  classified : (h.classify? p).isSome = true
  inside : h.isRoot p = false
  entry : ∀ log, (BundlePlan.ofDependencies h (ImportLog.dependencies h log)).Holds
    (BundlePlan.share h p)

/-- An always needed file that falls under a subtree and is not the root of one is planned, if those
behind it are other files, or else spellings do not matter. -/
theorem planned_of_required (front : List Path) (required : h.requiredFiles = front ++ p :: back)
    (last : h.caseInsensitive = false ∨ ∀ q ∈ back, p.same q = false)
    (classified : (h.classify? p).isSome = true) (inside : h.isRoot p = false) : h.Planned p := by
  refine ⟨classified, inside, fun log => ?_⟩
  have real := share_ne_nothing classified inside
  have split : ImportLog.dependencies h log = (ImportLog.parse h log ++ front) ++ p :: back := by
    rw [ImportLog.dependencies, required, List.append_assoc]
  rcases last with sensitive | last
  · have mem : p ∈ ImportLog.dependencies h log := by simp [split]
    exact (BundlePlan.holds_ofDependencies_iff sensitive _ real).mpr
      ⟨p, mem, BundlePlan.Share.alike_refl _⟩
  · exact BundlePlan.holds_of_mem_ordered (split ▸ BundlePlan.mem_ordered_of_last last) real

/-! ## Entries of a directory -/

theorem exists_components_child (p : Path) (relative : isAbsolute ⟨name⟩ = false) :
    ∃ cs, (p.child name).components = p.components ++ cs := by
  by_cases empty : p.text = []
  · obtain ⟨text⟩ := p
    obtain rfl : text = [] := empty
    exact ⟨_, rfl⟩
  · exact ⟨_, components_join empty relative⟩

theorem isUnder_child (sensitive : h.caseInsensitive = false) (kind : Subtree)
    (relative : isAbsolute ⟨name⟩ = false) : h.isUnder kind ((h.root kind).child name) = true := by
  obtain ⟨cs, components⟩ := exists_components_child (h.root kind) relative
  have found : (h.root kind).below? ((h.root kind).child name) = some cs :=
    componentsAfter?_eq_some_iff.mpr components
  simp [isUnder, segmentsBelow?, sensitive, found]

theorem child_text_of_getLast? {c : Char} (last : p.text.getLast? = some c) (letter : c ≠ '/')
    (relative : isAbsolute ⟨name⟩ = false) : (p.child name).text = p.text ++ '/' :: name := by
  have full : p.text ≠ [] := by
    rintro empty
    simp [empty] at last
  simp [child, join, relative, full, last, letter]

theorem afterFolded?_append (s t u : Text) :
    afterFolded? (s ++ t) (s ++ u) = afterFolded? t u := by
  induction s with
  | nil => rfl
  | cons c s ih => simpa [afterFolded?] using ih

theorem slashed_append (s t : Text) : slashed (s ++ t) = slashed s ++ slashed t :=
  List.map_append

/-! ## Windows -/

/-- The script that is always needed on Windows. -/
def windowsScript (root : Path) : Path :=
  sub (sub root "Lib") "stringprep.py"

/-- The native library that is always needed on Windows. -/
def windowsLibrary (root : Path) : Path :=
  sub (sub root "DLLs") "unicodedata.pyd"

theorem exists_windows_texts (root : Path) : ∃ front : Text,
    (sub root "DLLs").text = front ++ "DLLs".toList ∧
      (windowsScript root).text = front ++ "Lib/stringprep.py".toList ∧
      (windowsLibrary root).text = front ++ "DLLs/unicodedata.pyd".toList := by
  obtain ⟨front, -, -, child⟩ := exists_child_text root
  have scripts : (sub root "Lib").text = front ++ "Lib".toList := child _ rfl
  have libraries : (sub root "DLLs").text = front ++ "DLLs".toList := child _ rfl
  refine ⟨front, libraries, ?_, ?_⟩
  · have entry : (windowsScript root).text = (sub root "Lib").text ++ '/' :: "stringprep.py".toList :=
      child_text_of_getLast? (c := 'b') (by simp [scripts]) (by decide) rfl
    rw [entry, scripts]
    simp
  · have entry : (windowsLibrary root).text =
        (sub root "DLLs").text ++ '/' :: "unicodedata.pyd".toList :=
      child_text_of_getLast? (c := 's') (by simp [libraries]) (by decide) rfl
    rw [entry, libraries]
    simp

theorem windowsScript_not_same (root : Path) :
    (windowsScript root).same (windowsLibrary root) = false := by
  cases same : (windowsScript root).same (windowsLibrary root) with
  | false => rfl
  | true =>
    have named (p : Path) (name : Text) (h : fileName? ⟨name⟩ = some name) :
        (p.child name).fileName? = some name :=
      (fileName?_join (by rw [h]; exact nofun)).trans h
    have script := named (sub root "Lib") "stringprep.py".toList (by decide)
    have library := named (sub root "DLLs") "unicodedata.pyd".toList (by decide)
    have names := script.symm.trans ((fileName?_of_same same).trans library)
    exact absurd names (by decide)

/-- The root of the native libraries, as texts are compared on Windows. -/
theorem trimEnd_slashed (front : Text) :
    Text.trimEnd (· == '/') (slashed (front ++ "DLLs".toList)) =
      slashed front ++ "DLLs".toList := by
  simp [Text.trimEnd, slashed]

theorem segmentsFolded?_windowsScript (root : Path) :
    segmentsFolded? (windowsScript root) (sub root "DLLs") = none := by
  obtain ⟨front, libraries, script, -⟩ := exists_windows_texts root
  have apart : afterFolded? (slashed front ++ "DLLs".toList)
      (slashed front ++ slashed "Lib/stringprep.py".toList) = none := by
    rw [afterFolded?_append]
    decide
  rw [segmentsFolded?, libraries, script, trimEnd_slashed, slashed_append]
  rw [apart]

theorem isSome_segmentsFolded?_windowsLibrary (root : Path) :
    (segmentsFolded? (windowsLibrary root) (sub root "DLLs")).isSome = true := by
  obtain ⟨front, libraries, -, library⟩ := exists_windows_texts root
  have rest : afterFolded? (slashed front ++ "DLLs".toList)
      (slashed front ++ slashed "DLLs/unicodedata.pyd".toList) =
        some "/unicodedata.pyd".toList := by
    rw [afterFolded?_append]
    decide
  rw [segmentsFolded?, libraries, library, trimEnd_slashed, slashed_append]
  rw [rest]
  rfl

/-! ## Probed layouts -/

theorem planned_windows {root : Path} (insensitive : h.caseInsensitive = true)
    (native : h.nativeDir = sub root "DLLs")
    (required : h.requiredFiles = [windowsScript root, windowsLibrary root])
    (inside : ∀ p ∈ h.requiredFiles, h.isRoot p = false)
    (script : h.isUnder kind (windowsScript root) = true) : ∀ p ∈ h.requiredFiles, h.Planned p := by
  have library : h.isUnder .native (windowsLibrary root) = true := by
    simp only [isUnder, segmentsBelow?, insensitive, if_true, Layout.root, native]
    exact isSome_segmentsFolded?_windowsLibrary root
  rw [required] at inside ⊢
  obtain ⟨inside_script, inside_library⟩ := List.forall_mem_cons.mp inside
  refine List.forall_mem_cons.mpr ⟨?_, List.forall_mem_singleton.mpr ?_⟩
  · have last : ∀ q ∈ [windowsLibrary root], (windowsScript root).same q = false :=
      List.forall_mem_singleton.mpr (windowsScript_not_same root)
    exact planned_of_required [] required (.inr last) (isSome_classify?_iff.mpr ⟨kind, script⟩)
      inside_script
  · exact planned_of_required [windowsScript root] required (.inr (List.forall_mem_nil _))
      (isSome_classify?_iff.mpr ⟨.native, library⟩) (inside_library _ (List.mem_singleton_self _))

theorem planned_posix {suffix : Text} (sensitive : h.caseInsensitive = false)
    (required : h.requiredFiles = posixRequired h.stdlibDir h.nativeDir suffix)
    (inside : ∀ p ∈ h.requiredFiles, h.isRoot p = false) : ∀ p ∈ h.requiredFiles, h.Planned p := by
  intro p hp
  have under : ∃ kind, h.isUnder kind p = true := by
    rw [required] at hp
    rcases List.mem_cons.mp hp with rfl | hp
    · exact ⟨.standard, isUnder_child sensitive .standard rfl⟩
    · obtain rfl := List.mem_singleton.mp hp
      exact ⟨.native, isUnder_child sensitive .native rfl⟩
  obtain ⟨front, back, split⟩ := List.append_of_mem hp
  exact planned_of_required front split (.inl sensitive) (isSome_classify?_iff.mpr under) (inside p hp)

/-- In a probed layout the files that are always needed are in the plan of every log exactly if none
of them is the root of a subtree and, on Windows, the script that is looked for below the install root
lies in the standard library or among the packages. -/
theorem required_planned_iff {output : Text} (probed : ofProbe output = .ok h) :
    (∀ p ∈ h.requiredFiles, h.Planned p) ↔
      (∀ p ∈ h.requiredFiles, h.isRoot p = false) ∧
        (h.caseInsensitive = true → h.isUnder .standard (windowsScript h.installRoot) = true ∨
          h.isUnder .thirdParty (windowsScript h.installRoot) = true) := by
  constructor
  · intro planned
    refine ⟨fun p hp => (planned p hp).inside, fun insensitive => ?_⟩
    cases probed_of_ofProbe probed with
    | posix => cases insensitive
    | windows root =>
      have script := (planned (windowsScript root) List.mem_cons_self).classified
      obtain ⟨kind, under⟩ := isSome_classify?_iff.mp script
      cases kind with
      | standard => exact .inl under
      | thirdParty => exact .inr under
      | native =>
        have none := segmentsFolded?_windowsScript root
        have some : (segmentsFolded? (windowsScript root) (sub root "DLLs")).isSome = true := under
        simp [none] at some
  · rintro ⟨inside, script⟩
    cases probed_of_ofProbe probed with
    | posix => exact planned_posix rfl rfl inside
    | windows root =>
      rcases script rfl with under | under
      · exact planned_windows rfl rfl rfl inside under
      · exact planned_windows rfl rfl rfl inside under

/-- What the probe prints on Windows for an install root, the base installation being in
`C:\Python311`. -/
def windowsOutput (root : Text) : Text :=
  probeOutput [
    ("os", "nt".toList),
    ("executable", "python.exe".toList),
    ("install_root", root),
    ("base_prefix", "C:\\Python311".toList),
    ("stdlib", "C:\\Python311\\Lib".toList),
    ("platstdlib", root ++ "\\Lib".toList),
    ("purelib", root ++ "\\Lib\\site-packages".toList),
    ("include", "C:\\Python311\\Include".toList),
    ("libdir", []),
    ("version", "3.11".toList),
    ("ext_suffix", ".cp311-win_amd64.pyd".toList)]

/-- The layout that this describes. -/
def windowsHost (root : Text) : Layout :=
  probedWindows ⟨root⟩ "3.11".toList ".cp311-win_amd64.pyd".toList ⟨"python.exe".toList⟩
    ⟨"C:\\Python311\\Lib".toList⟩ ⟨root ++ "\\Lib\\site-packages".toList⟩
    ⟨"C:\\Python311\\Include".toList⟩ ⟨"C:\\Python311/libs".toList⟩

/-- The base installation. -/
def baseRoot : Text :=
  "C:\\Python311".toList

/-- A virtual environment. -/
def venvRoot : Text :=
  "C:\\venv".toList

/-- Without a virtual environment, the install root is the base installation. -/
theorem required_planned_iff_base :
    ofProbe (windowsOutput baseRoot) = .ok (windowsHost baseRoot) ∧
      ∀ p ∈ (windowsHost baseRoot).requiredFiles, (windowsHost baseRoot).Planned p := by
  have probed : ofProbe (windowsOutput baseRoot) = .ok (windowsHost baseRoot) := by decide +kernel
  refine ⟨probed, (required_planned_iff probed).mpr ⟨by decide +kernel, fun _ => .inl ?_⟩⟩
  decide +kernel

/-- In a virtual environment the standard library lies outside the install root. -/
theorem not_required_planned_venv :
    ∃ h, ofProbe (windowsOutput venvRoot) = .ok h ∧ windowsScript h.installRoot ∈ h.requiredFiles ∧
      h.classify? (windowsScript h.installRoot) = none ∧
      (BundlePlan.ofDependencies h (ImportLog.dependencies h [])).files = [] := by
  refine ⟨windowsHost venvRoot, by decide +kernel, by decide +kernel, by decide +kernel, ?_⟩
  refine List.eq_nil_iff_forall_not_mem.mpr fun f hf => ?_
  have held : (BundlePlan.ofDependencies (windowsHost venvRoot)
      (windowsHost venvRoot).requiredFiles).Holds (.file f) :=
    ⟨f, hf, ArchiveSource.same_iff.mpr rfl⟩
  obtain ⟨p, hp, alike⟩ := (BundlePlan.holds_iff_ordered _ (b := .file f) nofun).mp held
  have shares : ∀ p ∈ (windowsHost venvRoot).requiredFiles,
      BundlePlan.share (windowsHost venvRoot) p ∈
        [.nothing, .library (windowsLibrary ⟨venvRoot⟩)] := by decide +kernel
  rcases List.mem_cons.mp (shares p (BundlePlan.mem_of_mem_ordered hp)) with share | share
  · exact (share ▸ alike : BundlePlan.Share.Alike .nothing _)
  · exact (List.mem_singleton.mp share ▸ alike : BundlePlan.Share.Alike (.library _) _)

end Layout

end NativeFreeze
