import NativeFreeze.Proofs.Unit.Lifecycle

/-!
# A sample build

Tools that do the least that a build asks of them: a transpiler whose source holds the markers and
nothing else, and a toolchain that answers without touching a file.
-/

namespace NativeFreeze.Sample

/-- The markers of the sample transpiler. -/
def contract : SourceContract where
  packageMarker := "package;".toList
  pathMarker := "path;".toList
  executionMarker := "run:".toList
  blockEnd := "end".toList
  moduleObject := "m".toList

/-- The source that the sample transpiler writes. -/
def code : Text := "package; path; run: end\n".toList

/-- Writes the same source for every script. -/
def transpiler : Transpiler where
  contract := contract
  run r := Action.change none (·.write r.output (.plain code.bytes))

/-- Takes the sources for objects and links nothing. -/
def toolchain : Toolchain where
  compile sources _ := return sources
  link _ _ _ _ := return

/-- Answers where the objects of the sources belong, and touches no file. -/
def compiler : Toolchain where
  compile sources options :=
    return (sources.filter fun source => !isHeader source).map (objectPath · options.outputDir)
  link _ _ _ _ := return

/-- Sample tools on a host without programs. -/
def context : BuildContext where
  around := ⟨fun _ _ t => (.error .notFound, t), fun _ => none⟩
  layout := .posix ⟨"/py".toList⟩ "3.11".toList ".so".toList
  dirs := .below ⟨"build".toList⟩
  transpiler := transpiler
  toolchain := toolchain

theorem transpiler_keepsRequests : transpiler.KeepsRequests :=
  fun _ => Action.keepsRequests_change _ _

theorem toolchain_keepsRequests : toolchain.KeepsRequests where
  compile _ _ := Action.keeps_pure _
  link _ _ _ _ := Action.keeps_pure _

/-- Sample tools that answer objects of their own. -/
def tools : BuildContext :=
  { context with toolchain := compiler }

/-- The script at a path, as it is made. -/
def script (path : Text) : ScriptUnit where
  named := .of (.resolve ⟨path⟩ none)
  generated := Path.withSuffix ⟨path⟩ ScriptUnit.generatedSuffix

/-- The native source at a path, as it is made. -/
def native (path : Text) : NativeUnit where
  named := .of (.resolve ⟨path⟩ none)

/-- A directory with these files. -/
def project (files : List String) : Workspace where
  files := { entries := files.map fun p => ([p.toList], .file (.plain []) false) }

/-- A directory `a` with a directory `b`. -/
def start : Workspace where
  files := { entries := [(["a".toList], .directory), (["a".toList, "b".toList], .directory)] }

end NativeFreeze.Sample
