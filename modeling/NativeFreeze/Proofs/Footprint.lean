import NativeFreeze.Node.Executable
import NativeFreeze.Proofs.Bundle.Plan
import NativeFreeze.Proofs.FileTree
import NativeFreeze.Proofs.Invariant

/-!
# Which files an action writes

A steady property of the workspace outlives messages, new directories, and what is written to some
paths. Each action that starts no tool preserves every property that is steady under the paths it
writes. A view of the workspace that sees neither the file tree nor the messages is steady under all
of them.
-/

namespace NativeFreeze

open NativeFreeze.Action

variable {α γ : Type} {I : Workspace → Prop} {writes : Path → Prop}

/-- A property that outlives messages, new directories, and what is written to the paths in
`writes`. -/
structure Workspace.Steady (I : Workspace → Prop) (writes : Path → Prop) : Prop where
  told : ∀ {w} output log, I w → I { w with output := output, log := log }
  made : ∀ {w} p, I w → I { w with files := (w.files.makeAll p).2 }
  written : ∀ {w p content t}, writes p → FileTree.Wrote w.files p content t → I w →
    I { w with files := t }

/-- Starting a command does not change a property, whatever the command does to the files. -/
def Surroundings.Preserves (around : Surroundings) (I : Workspace → Prop) (command : Command)
    (limit : Option Nat) : Prop :=
  ∀ w, I w → I { w with files := (around.launch command limit w.files).2 }

/-- The command that traces a script. -/
def Trace.command (h : Layout) (script : Path) : Command :=
  ⟨h.executable.text, ["-v".toList, script.text]⟩

/-- A view that sees neither the file tree nor the messages. -/
def Workspace.Blind (view : Workspace → γ) : Prop :=
  ∀ w files output log, view { w with files := files, output := output, log := log } = view w

theorem Workspace.blind_requests : Workspace.Blind Workspace.requests :=
  fun _ _ _ _ => rfl

theorem Workspace.blind_artifacts : Workspace.Blind Workspace.artifacts :=
  fun _ _ _ _ => rfl

theorem Workspace.Blind.steady {view : Workspace → γ} (blind : Workspace.Blind view) (v : γ) :
    Workspace.Steady (fun w => view w = v) fun _ => True where
  told output log h := (blind _ _ output log).trans h
  made _ h := (blind _ _ _ _).trans h
  written _ _ h := (blind _ _ _ _).trans h

namespace Action

theorem result_makeAll (during : Option Activity) (p : Path) (w : Workspace) :
    (makeAll during p).result w =
      (match (w.files.makeAll p).1 with
        | .ok () => .ok ()
        | .error e => .error ⟨.file e, during⟩, { w with files := (w.files.makeAll p).2 }) := by
  simp only [makeAll, result_bind, result_files, result_modify]
  cases (w.files.makeAll p).1 <;> rfl

theorem result_launch (around : Surroundings) (during : Activity) (command : Command)
    (limit : Option Nat) (w : Workspace) :
    (launch around during command limit).result w =
      (match (around.launch command limit w.files).1 with
        | .ok finished => .ok finished
        | .error e => .error ⟨.file e, some during⟩,
        { w with files := (around.launch command limit w.files).2 }) := by
  simp only [launch, result_bind, result_files, result_modify]
  cases (around.launch command limit w.files).1 <;> rfl

theorem preserves_launch {around : Surroundings} {command : Command} {limit : Option Nat}
    (launched : around.Preserves I command limit) (during : Activity) :
    Preserves I (launch around during command limit) := by
  intro w hw
  rw [result_launch]
  exact ⟨launched w hw, fun _ _ => trivial⟩

theorem preserves_change {operation : FileTree → Except FileError FileTree}
    (changed : ∀ w t, operation w.files = .ok t → I w → I { w with files := t })
    (during : Option Activity) : Preserves I (change during operation) := by
  intro w hw
  rw [result_change]
  cases done : operation w.files with
  | error e => exact ⟨hw, nofun⟩
  | ok t => exact ⟨changed w t done hw, fun _ _ => trivial⟩

end Action

/-! ## What can be found -/

/-- The paths that an expansion of a pattern can answer. -/
def Pattern.Offers (p : Pattern) (q : Path) : Prop :=
  if p.isWild then ∃ name, p.admits name = true ∧ q = p.directory.child name else q = p.path

theorem Pattern.maintains_expand (p : Pattern) (home : Option Path) :
    Maintains I (p.expand home) fun qs => ∀ q ∈ qs, p.Offers q := by
  unfold expand Offers
  split
  · refine maintains_bind (maintains_ask fun _ _ _ => trivial) fun entries (_ : True) => ?_
    refine maintains_pure fun q hq => ?_
    obtain ⟨⟨name, e⟩, -, chosen⟩ := List.mem_filterMap.mp (Path.mem_sort.mp hq)
    dsimp only at chosen
    by_cases admitted : (e.isFile && p.admits name) = true
    · rw [if_pos admitted] at chosen
      rw [Bool.and_eq_true] at admitted
      exact ⟨name, admitted.2, (Option.some.inj chosen).symm⟩
    · rw [if_neg admitted] at chosen
      exact absurd chosen nofun
  · exact maintains_pure fun q hq => List.mem_singleton.mp hq

theorem BundlePlan.mem_native_foldl_add {library : Path} (shares : List Share) (plan : BundlePlan)
    (h : library ∈ (shares.foldl add plan).native) :
    library ∈ plan.native ∨ .library library ∈ shares := by
  induction shares generalizing plan with
  | nil => exact .inl h
  | cons share shares ih =>
    rcases ih (plan.add share) h with first | later
    · cases share with
      | nothing => exact .inl first
      | file s => exact .inl first
      | folder s => exact .inl first
      | library p =>
        rw [add, addNew] at first
        dsimp only at first
        split at first
        · exact .inl first
        · rcases List.mem_append.mp first with old | new
          · exact .inl old
          · obtain rfl := List.mem_singleton.mp new
            exact .inr List.mem_cons_self
    · exact .inr (List.mem_cons_of_mem _ later)

/-- A plan copies native libraries only. -/
theorem BundlePlan.classify?_of_mem_native {h : Layout} {dependencies : List Path} {library : Path}
    (inside : library ∈ (ofDependencies h dependencies).native) :
    h.classify? library = some .native := by
  rcases mem_native_foldl_add _ _ inside with none | shared
  · exact absurd none List.not_mem_nil
  · obtain ⟨p, -, shared⟩ := List.mem_map.mp shared
    obtain ⟨rfl, native⟩ := share_eq_library_iff.mp shared
    exact native

section Steady
variable (steady : Workspace.Steady I writes)
include steady

namespace Action

theorem preserves_note (level : Log.Level) (topic : Log.Topic) (message : Text) :
    Preserves I (note level topic message) :=
  maintains_modify fun w hw => steady.told w.output _ hw

theorem preserves_print (bytes : Bytes) : Preserves I (print bytes) :=
  maintains_modify fun w hw => steady.told _ w.log hw

theorem preserves_makeAll (during : Option Activity) (p : Path) :
    Preserves I (makeAll during p) := by
  intro w hw
  rw [result_makeAll]
  exact ⟨steady.made p hw, fun _ _ => trivial⟩

theorem preserves_makeParent (during : Path → Option Activity) (p : Path) :
    Preserves I (makeParent during p) := by
  unfold makeParent
  split
  · split
    · exact maintains_pure trivial
    · exact preserves_makeAll steady _ _
  · exact maintains_pure trivial

theorem preserves_write {p : Path} (inside : writes p) (during : Option Activity)
    (content : Content) : Preserves I (change during (·.write p content)) :=
  preserves_change (fun _ _ done => steady.written inside (FileTree.wrote_of_write done)) during

theorem preserves_copy {target : Path} (inside : writes target) (during : Option Activity)
    (source : Path) : Preserves I (change during (·.copy source target)) := by
  refine preserves_change (fun w t done => ?_) during
  obtain ⟨content, wrote⟩ := FileTree.wrote_of_copy done
  exact steady.written inside wrote

theorem preserves_runTool {around : Surroundings} {command : Command}
    (launched : around.Preserves I command none) (during : Activity) (tool : Text) :
    Preserves I (runTool around during tool command) := by
  refine maintains_bind (preserves_launch launched during) fun run _ => ?_
  refine maintains_bind (preserves_print steady _) fun _ _ => ?_
  split
  · exact maintains_pure trivial
  · exact maintains_throw _

end Action

/-! ## Units -/

theorem DescriptorUnit.preserves_generate {u : DescriptorUnit}
    (inside : u.isGenerated = true → writes u.path) : Preserves I u.generate := by
  unfold generate
  cases config : u.config with
  | none => exact maintains_pure trivial
  | some descriptor =>
    have generated : u.isGenerated = true := by rw [isGenerated, config, Option.isSome_some]
    refine maintains_bind (preserves_note steady _ _ _) fun _ _ => ?_
    refine maintains_bind (preserves_makeParent steady _ _) fun _ _ => ?_
    exact preserves_write steady (inside generated) _ _

theorem DataUnit.preserves_cloneInto {u : DataUnit} {outputRoot : Path}
    (inside : writes (outputRoot.join u.source.input)) : Preserves I (u.cloneInto outputRoot) := by
  have copies : Preserves I (do
      Action.change (some (.copying u.source.path (outputRoot.join u.source.input)))
        (·.copy u.source.path (outputRoot.join u.source.input))
      return outputRoot.join u.source.input) :=
    maintains_bind (preserves_copy steady inside _ _) fun _ _ => maintains_pure trivial
  refine maintains_bind (preserves_note steady _ _ _) fun _ _ => ?_
  dsimp only
  cases (outputRoot.join u.source.input).parent? with
  | none => exact copies
  | some above => exact maintains_bind (preserves_makeAll steady _ _) fun _ _ => copies

theorem DataNode.preserves_process {c : BuildContext} {d : DataNode}
    (inside : ∀ u ∈ d.units, writes (c.dirs.output.join u.source.input)) :
    Preserves I (d.process c) :=
  (maintains_mapM fun u hu => DataUnit.preserves_cloneInto steady (inside u hu)).preserves

/-! ## Bundles -/

theorem BundlePlan.preserves_members (plan : BundlePlan) : Preserves I plan.members := by
  refine maintains_bind preserves_files fun t _ => ?_
  rcases plan.candidates t with ⟨sources, failure⟩
  refine maintains_bind (preserves_forIn (fun _ => preserves_note steady _ _ _) _) fun _ _ => ?_
  cases failure with
  | none => exact maintains_pure trivial
  | some failure => exact maintains_throw _

namespace Bundle

theorem preserves_fillArchive {archive : Path} (inside : writes archive) (done : Archive)
    (members : List ArchiveSource) : Preserves I (fillArchive archive done members) := by
  induction members generalizing done with
  | nil => exact maintains_pure trivial
  | cons s rest ih =>
    refine maintains_bind preserves_files fun t _ => ?_
    have added (bytes : Bytes) : Preserves I (do
        change (some (.creating archive)) (·.write archive (.archive (done ++ [⟨s.name, bytes⟩])))
        fillArchive archive (done ++ [⟨s.name, bytes⟩]) rest) :=
      maintains_bind (preserves_write steady inside _ _) fun _ _ => ih _
    dsimp only
    split
    · exact maintains_bind (maintains_pure trivial) fun bytes (_ : True) => added bytes
    · exact maintains_bind (maintains_throw _) fun bytes (_ : True) => added bytes
    · exact maintains_bind (maintains_throw _) fun bytes (_ : True) => added bytes

theorem preserves_writeArchive {archive : Path} (inside : writes archive)
    (members : List ArchiveSource) : Preserves I (writeArchive archive members) := by
  refine maintains_bind (preserves_note steady _ _ _) fun _ _ => ?_
  refine maintains_bind (preserves_write steady inside _ _) fun _ _ => ?_
  exact preserves_fillArchive steady inside _ _

theorem preserves_copyLibrary {outDir library : Path}
    (inside : ∀ name, library.fileName? = some name → writes (outDir.child name)) :
    Preserves I (copyLibrary outDir library) := by
  unfold copyLibrary
  cases named : library.fileName? with
  | none => exact maintains_pure trivial
  | some name =>
    refine maintains_bind (preserves_note steady _ _ _) fun _ _ => ?_
    refine maintains_bind (preserves_copy steady (inside name named) _ _) fun _ _ => ?_
    exact maintains_pure trivial

theorem preserves_pack {h : Layout} {dependencies : List Path} {outDir : Path}
    (archive : writes (outDir.child archiveName))
    (native : ∀ library name, h.classify? library = some .native →
      library.fileName? = some name → writes (outDir.child name)) :
    Preserves I (pack h dependencies outDir) := by
  refine maintains_bind (preserves_note steady _ _ _) fun _ _ => ?_
  refine maintains_bind (preserves_makeAll steady _ _) fun _ _ => ?_
  refine maintains_bind (BundlePlan.preserves_members steady _) fun members _ => ?_
  refine maintains_bind (preserves_writeArchive steady archive _) fun _ _ => ?_
  refine maintains_bind (preserves_filterMapM fun library hl => ?_) fun _ _ =>
    maintains_pure trivial
  exact preserves_copyLibrary steady fun name =>
    native library name (BundlePlan.classify?_of_mem_native hl)

end Bundle

/-! ## Executables -/

namespace ExecutableNode

theorem preserves_copyRuntimeLibrary {h : Layout} {outputDir library : Path}
    (inside : ∀ name, library.fileName? = some name → writes (outputDir.child name)) :
    Preserves I (copyRuntimeLibrary h outputDir library) := by
  unfold copyRuntimeLibrary
  cases named : library.fileName? with
  | none => exact maintains_pure trivial
  | some name =>
    refine maintains_bind (preserves_note steady _ _ _) fun _ _ => ?_
    refine maintains_bind (preserves_copy steady (inside name named) _ _) fun _ _ => ?_
    exact maintains_pure trivial

theorem preserves_copyRuntimeLibraries {h : Layout} {outputDir : Path}
    (inside : ∀ library name, (Pattern.ofPath h.runtimeLibraryPattern).Offers library →
      library.fileName? = some name → writes (outputDir.child name)) :
    Preserves I (copyRuntimeLibraries h outputDir) := by
  refine maintains_bind (preserves_makeAll steady _ _) fun _ _ => ?_
  refine maintains_bind (Pattern.maintains_expand _ _) fun libraries offered => ?_
  exact preserves_filterMapM fun library hl =>
    preserves_copyRuntimeLibrary steady fun name => inside library name (offered library hl)

theorem preserves_dependencies {c : BuildContext}
    (traced : ∀ script, c.around.Preserves I (Trace.command c.layout script) c.traceWindow)
    (script : Option Path) : Preserves I (dependencies c script) := by
  cases script with
  | none => exact maintains_bind (preserves_note steady _ _ _) fun _ _ => maintains_pure trivial
  | some script =>
    refine maintains_bind (preserves_note steady _ _ _) fun _ _ => ?_
    refine maintains_bind ?_ fun text (_ : True) => maintains_pure trivial
    exact maintains_bind (preserves_launch (traced script) _) fun _ _ => maintains_pure trivial

theorem preserves_bundle {c : BuildContext} {e : ExecutableNode}
    (traced : ∀ script, c.around.Preserves I (Trace.command c.layout script) c.traceWindow)
    (archive : writes ((c.dirs.output.child e.runtime).child archiveName))
    (native : ∀ library name, c.layout.classify? library = some .native →
      library.fileName? = some name → writes ((c.dirs.output.child e.runtime).child name))
    (script : Option Path) : Preserves I (e.bundle c script) := by
  refine maintains_bind (preserves_dependencies steady traced script) fun dependencies _ => ?_
  refine maintains_bind (Bundle.preserves_pack steady archive native) fun _ _ => ?_
  exact maintains_pure trivial

end ExecutableNode

/-! ## Tools -/

theorem Cython.preserves_run {around : Surroundings} {interpreter : Path} {r : TranspileRequest}
    (launched : around.Preserves I (command interpreter r) none) :
    Preserves I ((transpiler around interpreter).run r) :=
  maintains_bind (preserves_note steady _ _ _) fun _ _ => preserves_runTool steady launched _ _

namespace Compiler

variable {around : Surroundings} {compiler : Text}

/-- The compiler answers the object of each source that is not a header. -/
theorem maintains_compile {sources : List Path} {options : CompileOptions}
    (launched : ∀ source ∈ sources, isHeader source = false → around.Preserves I
      (compileCommand compiler source (objectPath source options.outputDir) options) none) :
    Maintains I ((toolchain around compiler).compile sources options) fun objects =>
      ∀ object ∈ objects, ∃ source ∈ sources, isHeader source = false ∧
        object = objectPath source options.outputDir := by
  refine maintains_mapM fun source hs => ?_
  obtain ⟨inside, compiled⟩ : source ∈ sources ∧ isHeader source = false := by
    simpa using List.mem_filter.mp hs
  refine maintains_bind (preserves_makeParent steady _ _) fun _ _ => ?_
  refine maintains_bind (preserves_note steady _ _ _) fun _ _ => ?_
  refine maintains_bind
    (preserves_runTool steady (launched source inside compiled) _ _) fun _ _ => ?_
  exact maintains_pure ⟨source, inside, compiled, rfl⟩

theorem preserves_link {kind : LinkKind} {objects : List Path} {output : Path}
    {options : LinkOptions}
    (launched : around.Preserves I (linkCommand compiler kind objects output options) none) :
    Preserves I ((toolchain around compiler).link kind objects output options) := by
  refine maintains_bind (preserves_makeParent steady _ _) fun _ _ => ?_
  refine maintains_bind (preserves_note steady _ _ _) fun _ _ => ?_
  exact preserves_runTool steady launched _ _

end Compiler

end Steady

end NativeFreeze
