import NativeFreeze.Layout.Basic
import NativeFreeze.Workspace

/-!
# Probing the host

The layout of an installation is either configured or asked for once: the interpreter runs a script
that prints one `key=value` line for each fact. Of a key that is printed twice the last value
counts.
-/

namespace NativeFreeze.Layout

/-- The script that prints the facts about an installation. -/
def probeScript : Text := (([
  "import os, sys, sysconfig",
  "v = sysconfig.get_config_var",
  "p = sysconfig.get_path",
  "print(\"os=\" + os.name)",
  "print(\"executable=\" + sys.executable)",
  "print(\"install_root=\" + sys.exec_prefix)",
  "print(\"base_prefix=\" + sys.base_prefix)",
  "print(\"stdlib=\" + p(\"stdlib\"))",
  "print(\"platstdlib=\" + p(\"platstdlib\"))",
  "print(\"purelib=\" + p(\"purelib\"))",
  "print(\"include=\" + p(\"include\"))",
  "print(\"libdir=\" + (v(\"LIBDIR\") or \"\"))",
  "print(\"version=%d.%d\" % sys.version_info[:2])",
  "print(\"ext_suffix=\" + (v(\"EXT_SUFFIX\") or \".pyd\"))"
  ] : List String).map fun line => line.toList ++ ['\n']).flatten

/-- The facts printed by the probe, in order. -/
def facts (output : Text) : List (Text × Text) :=
  (Text.lines output).filterMap fun line => Text.cutAt? '=' (Text.trimEnd (· == '\r') line)

/-- The last value printed for a key. -/
def fact (facts : List (Text × Text)) (key : String) : Except Failure Text :=
  match facts.reverse.lookup key.toList with
  | some value => .ok value
  | none => .error ⟨.probeSilent key.toList, none⟩

/-- The layout that the output of the probe describes. -/
def ofProbe (output : Text) : Except Failure Layout := do
  let get := fact (facts output)
  let root ← get "install_root"
  let version ← get "version"
  let extSuffix ← get "ext_suffix"
  let isWindows := (← get "os") == "nt".toList
  let executable ← get "executable"
  let stdlib ← get "stdlib"
  let purelib ← get "purelib"
  let headers ← get "include"
  let libdir ← get "libdir"
  let libraryDir ←
    if libdir.isEmpty then pure (sub ⟨← get "base_prefix"⟩ "libs") else pure ⟨libdir⟩
  let base := if isWindows then windows ⟨root⟩ version else posix ⟨root⟩ version extSuffix
  let layout : Layout :=
    { base with
      executable := ⟨executable⟩
      stdlibDir := ⟨stdlib⟩
      sitePackagesDir := ⟨purelib⟩
      includeDir := ⟨headers⟩
      extSuffix := extSuffix
      libraryDirs := [libraryDir] }
  if isWindows then
    return layout
  -- The platform library may stand away from the install root.
  let nativeDir := sub ⟨← get "platstdlib"⟩ "lib-dynload"
  return { layout with
    nativeDir := nativeDir
    requiredFiles := posixRequired layout.stdlibDir nativeDir extSuffix }

/-- The layout of the installation that an interpreter belongs to. -/
def detect (around : Surroundings) (python : Path) : Action Layout := do
  let run ← Action.launch around (.running python) ⟨python.text, ["-c".toList, probeScript]⟩
  if run.exit.isSuccess then Action.ofExcept (ofProbe (Utf8.decodeLossy run.output))
  else Action.fail (.probeFailed (Utf8.decodeLossy run.errors))

end NativeFreeze.Layout
