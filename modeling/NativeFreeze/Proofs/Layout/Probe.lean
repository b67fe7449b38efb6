import NativeFreeze.Layout.Probe

/-!
# What a probe describes

A probe that answers everything describes one of two kinds of layouts. It is free in where the
standard library, the packages and the headers lie. On Windows the native libraries stay below the
install root, and so do the files that are always needed; elsewhere both are put where the two
libraries are said to lie.
-/

namespace NativeFreeze.Layout

/-- The layout that a probe on Windows describes. -/
def probedWindows (root : Path) (version extSuffix : Text)
    (executable stdlibDir sitePackagesDir includeDir libraryDir : Path) : Layout :=
  { windows root version with
    executable := executable
    stdlibDir := stdlibDir
    sitePackagesDir := sitePackagesDir
    includeDir := includeDir
    extSuffix := extSuffix
    libraryDirs := [libraryDir] }

/-- The layout that a probe on a POSIX system describes. -/
def probedPosix (root : Path) (version extSuffix : Text)
    (executable stdlibDir platformDir sitePackagesDir includeDir libraryDir : Path) : Layout :=
  { posix root version extSuffix with
    executable := executable
    stdlibDir := stdlibDir
    nativeDir := sub platformDir "lib-dynload"
    sitePackagesDir := sitePackagesDir
    includeDir := includeDir
    libraryDirs := [libraryDir]
    requiredFiles := posixRequired stdlibDir (sub platformDir "lib-dynload") extSuffix }

/-- The layouts that a probe can describe. -/
inductive Probed : Layout → Prop
  | windows (root : Path) (version extSuffix : Text)
      (executable stdlibDir sitePackagesDir includeDir libraryDir : Path) :
      Probed (probedWindows root version extSuffix executable stdlibDir sitePackagesDir includeDir
        libraryDir)
  | posix (root : Path) (version extSuffix : Text)
      (executable stdlibDir platformDir sitePackagesDir includeDir libraryDir : Path) :
      Probed (probedPosix root version extSuffix executable stdlibDir platformDir sitePackagesDir
        includeDir libraryDir)

theorem bind_eq_ok {α β : Type} {x : Except Failure α} {f : α → Except Failure β} {b : β}
    (h : x >>= f = .ok b) : ∃ a, x = .ok a ∧ f a = .ok b := by
  cases x with
  | error e => cases h
  | ok a => exact ⟨a, rfl, h⟩

/-- A probe is accepted with one of these layouts. -/
theorem probed_of_ofProbe {output : Text} {h : Layout} (probed : ofProbe output = .ok h) :
    Probed h := by
  unfold ofProbe at probed
  dsimp only at probed
  obtain ⟨root, -, probed⟩ := bind_eq_ok probed
  obtain ⟨version, -, probed⟩ := bind_eq_ok probed
  obtain ⟨extSuffix, -, probed⟩ := bind_eq_ok probed
  obtain ⟨system, -, probed⟩ := bind_eq_ok probed
  obtain ⟨executable, -, probed⟩ := bind_eq_ok probed
  obtain ⟨stdlib, -, probed⟩ := bind_eq_ok probed
  obtain ⟨purelib, -, probed⟩ := bind_eq_ok probed
  obtain ⟨headers, -, probed⟩ := bind_eq_ok probed
  obtain ⟨libdir, -, probed⟩ := bind_eq_ok probed
  by_cases nt : (system == "nt".toList) = true
  · simp only [nt, if_true] at probed
    split at probed
    · obtain ⟨base, -, probed⟩ := bind_eq_ok probed
      obtain rfl := Except.ok.inj probed
      exact .windows ..
    · obtain rfl := Except.ok.inj probed
      exact .windows ..
  · simp only [nt, Bool.false_eq_true, if_false] at probed
    split at probed
    · obtain ⟨base, -, probed⟩ := bind_eq_ok probed
      obtain ⟨libraryDir, -, probed⟩ := bind_eq_ok probed
      obtain ⟨platform, -, probed⟩ := bind_eq_ok probed
      obtain rfl := Except.ok.inj probed
      exact .posix ..
    · obtain ⟨libraryDir, -, probed⟩ := bind_eq_ok probed
      obtain ⟨platform, -, probed⟩ := bind_eq_ok probed
      obtain rfl := Except.ok.inj probed
      exact .posix ..

/-- What a probe prints that finds these facts. -/
def probeOutput (found : List (String × Text)) : Text :=
  found.flatMap fun (key, value) => key.toList ++ '=' :: value ++ ['\n']

end NativeFreeze.Layout
