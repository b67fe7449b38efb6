import NativeFreeze.Proofs.Footprint

/-!
# The record of requests

A workspace keeps the requests made to tools. Only the steps that ask a tool add to the record: all
other actions of a build keep it, and so do the tools themselves, which never see it.
-/

namespace NativeFreeze

open NativeFreeze.Action

/-- The record is one value after another, each of which outlives all that is done to files. -/
theorem steady_requests (requests : List Request) :
    Workspace.Steady (fun w => w.requests = requests) fun _ => True :=
  Workspace.blind_requests.steady requests

variable {α : Type}

namespace Action

/-- An action that asks no tool. -/
abbrev KeepsRequests (x : Action α) : Prop :=
  Keeps Workspace.requests x

theorem keepsRequests_note (level : Log.Level) (topic : Log.Topic) (message : Text) :
    KeepsRequests (note level topic message) := fun _ => rfl

theorem keepsRequests_record (p : Path) : KeepsRequests (record p) := fun _ => rfl

theorem keepsRequests_change (during : Option Activity)
    (operation : FileTree → Except FileError FileTree) :
    KeepsRequests (change during operation) :=
  keeps_of_preserves fun _ => preserves_change (fun _ _ _ hw => hw) during

end Action

/-! ## Tools -/

/-- A transpiler that leaves the record of requests alone. -/
def Transpiler.KeepsRequests (tool : Transpiler) : Prop :=
  ∀ r, Action.KeepsRequests (tool.run r)

/-- A toolchain that leaves the record of requests alone. -/
structure Toolchain.KeepsRequests (tools : Toolchain) : Prop where
  compile : ∀ sources options, Action.KeepsRequests (tools.compile sources options)
  link : ∀ kind objects output options, Action.KeepsRequests (tools.link kind objects output options)

theorem Cython.transpiler_keepsRequests (around : Surroundings) (interpreter : Path) :
    (Cython.transpiler around interpreter).KeepsRequests := fun _ =>
  keeps_of_preserves fun v => preserves_run (steady_requests v) fun _ hw => hw

theorem Compiler.toolchain_keepsRequests (around : Surroundings) (compiler : Text) :
    (Compiler.toolchain around compiler).KeepsRequests where
  compile _ _ := keeps_of_preserves fun v =>
    (maintains_compile (steady_requests v) fun _ _ _ _ hw => hw).preserves
  link _ _ _ _ := keeps_of_preserves fun v => preserves_link (steady_requests v) fun _ hw => hw

/-- Compiling and linking asks the compiler, and the linker if the compiler did not fail. -/
theorem BuildContext.compileAndLink_requests {c : BuildContext} (tools : c.toolchain.KeepsRequests)
    (sources : List Path) (compile : CompileOptions) (kind : LinkKind) (output : Path)
    (link : LinkOptions) (w : Workspace) :
    ∃ linked, ((c.compileAndLink sources compile kind output link).result w).2.requests =
        w.requests ++ .compile sources compile :: linked ∧
      (linked = [] ∨ ∃ objects, linked = [.link kind objects output link]) := by
  rw [compileAndLink, result_bind, result_request]
  dsimp only
  have compiled := tools.compile sources compile
    { w with requests := w.requests ++ [.compile sources compile] }
  rw [result_bind]
  rcases hc : (c.toolchain.compile sources compile).result
    { w with requests := w.requests ++ [.compile sources compile] } with ⟨e | objects, w₁⟩
  · rw [hc] at compiled
    exact ⟨[], compiled, .inl rfl⟩
  · rw [hc] at compiled
    refine ⟨[.link kind objects output link], ?_, .inr ⟨objects, rfl⟩⟩
    simp only [result_bind, result_forM_record, result_request]
    refine (tools.link kind objects output link _).trans ?_
    rw [compiled, List.append_assoc]
    rfl

/-! ## Units and executables -/

theorem DataUnit.cloneInto_keepsRequests (u : DataUnit) (outputRoot : Path) :
    KeepsRequests (u.cloneInto outputRoot) :=
  keeps_of_preserves fun v => preserves_cloneInto (steady_requests v) trivial

theorem DataNode.process_keepsRequests (c : BuildContext) (d : DataNode) :
    KeepsRequests (d.process c) :=
  keeps_of_preserves fun v => preserves_process (steady_requests v) fun _ _ => trivial

theorem DescriptorUnit.build_keepsRequests (u : DescriptorUnit) : KeepsRequests u.build := by
  have generates : KeepsRequests u.generate :=
    keeps_of_preserves fun v => preserves_generate (steady_requests v) fun _ => trivial
  refine keeps_bind generates fun _ => ?_
  split
  · exact keeps_bind (keepsRequests_record _) fun _ => keeps_pure _
  · exact keeps_pure _

namespace ExecutableNode

theorem bundle_keepsRequests (c : BuildContext) (script : Option Path) (e : ExecutableNode) :
    KeepsRequests (e.bundle c script) :=
  keeps_of_preserves fun v => preserves_bundle (steady_requests v) (fun _ _ hw => hw) trivial
    (fun _ _ _ _ => trivial) script

theorem copyRuntimeLibraries_keepsRequests (h : Layout) (outputDir : Path) :
    KeepsRequests (copyRuntimeLibraries h outputDir) :=
  keeps_of_preserves fun v => preserves_copyRuntimeLibraries (steady_requests v)
    fun _ _ _ _ => trivial

end ExecutableNode

end NativeFreeze
