import NativeFreeze.Node.Basic
import NativeFreeze.Proofs.Node.Sample
import NativeFreeze.Proofs.Unit.Build

/-!
# What a build records

A build remembers the files that it writes beside the sources, and the objects that the toolchain
answers. The first are known before: they are those that the node lists, though an executable lists
its main unit first and builds it last.
-/

namespace NativeFreeze

open Stage

variable {c : BuildContext} {w w' : Workspace}

/-- A transpiler that leaves the list of artifacts alone. -/
def Transpiler.KeepsArtifacts (tool : Transpiler) : Prop :=
  ∀ r, Action.Keeps Workspace.artifacts (tool.run r)

/-- A toolchain that leaves the list of artifacts alone. -/
structure Toolchain.KeepsArtifacts (tools : Toolchain) : Prop where
  compile : ∀ sources options, Action.Keeps Workspace.artifacts (tools.compile sources options)
  link : ∀ kind objects output options,
    Action.Keeps Workspace.artifacts (tools.link kind objects output options)

theorem steady_artifacts (artifacts : List Path) :
    Workspace.Steady (fun w => w.artifacts = artifacts) fun _ => True :=
  Workspace.blind_artifacts.steady artifacts

theorem Cython.transpiler_keepsArtifacts (around : Surroundings) (interpreter : Path) :
    (Cython.transpiler around interpreter).KeepsArtifacts := fun _ =>
  Action.keeps_of_preserves fun v => preserves_run (steady_artifacts v) fun _ hw => hw

theorem Compiler.toolchain_keepsArtifacts (around : Surroundings) (compiler : Text) :
    (Compiler.toolchain around compiler).KeepsArtifacts where
  compile _ _ := Action.keeps_of_preserves fun v =>
    (maintains_compile (steady_artifacts v) fun _ _ _ _ hw => hw).preserves
  link _ _ _ _ := Action.keeps_of_preserves fun v =>
    preserves_link (steady_artifacts v) fun _ hw => hw

theorem Sample.transpiler_keepsArtifacts : Sample.transpiler.KeepsArtifacts := fun _ =>
  Action.keeps_of_preserves fun _ => Action.preserves_change (fun _ _ _ hw => hw) _

theorem Sample.toolchain_keepsArtifacts : Sample.toolchain.KeepsArtifacts where
  compile _ _ := Action.keeps_pure _
  link _ _ _ _ := Action.keeps_pure _

/-! ## Units -/

namespace Stage

variable {σ α : Type}

/-- A stage that, if it succeeds, records the files that its part had at the start. -/
def Records (files : σ → List Path) (x : Stage σ α) : Prop :=
  ∀ {s w a s' w'}, x.result s w = (.ok a, s', w') → w'.artifacts = w.artifacts ++ files s

/-- A run over several parts records the files of each. -/
theorem records_each {files : σ → List Path} {x : Stage σ α} (h : Records files x) :
    Records (·.flatMap files) (each x) := by
  intro parts w answers parts' w' run
  rw [result_each] at run
  induction parts generalizing w answers parts' with
  | nil =>
    obtain ⟨-, -, rfl⟩ : _ ∧ _ ∧ w = w' := by simpa [eachResult] using run
    simp
  | cons s parts ih =>
    obtain ⟨a, s', w₁, rest, rest', first, others, -, -⟩ := eachResult_cons_eq_ok run
    rw [ih others, h first, List.append_assoc]
    rfl

end Stage

namespace ScriptUnit

variable {u v : ScriptUnit}

theorem transpile_artifacts {tool : Transpiler} (keeps : tool.KeepsArtifacts)
    {package : Option Bool} (h : (transpile tool package).result u w = (.ok (), v, w')) :
    v.generated = u.generated ∧ w'.artifacts = w.artifacts := by
  cases state : u.state.isTranspiled with
  | true =>
    rw [transpile_again state] at h
    simp only [Prod.mk.injEq, true_and] at h
    exact ⟨h.1 ▸ rfl, h.2 ▸ rfl⟩
  | false =>
    rw [transpile_first state] at h
    have kept := keeps (u.request (package.getD u.package))
      { w with requests := w.requests ++ [.transpile (u.request (package.getD u.package))] }
    rcases ran : (tool.run (u.request (package.getD u.package))).result
      { w with requests := w.requests ++ [.transpile (u.request (package.getD u.package))] }
      with ⟨e | ⟨⟩, w₁⟩
    · simp [ran] at h
    · rw [ran] at kept
      simp only [ran, Prod.mk.injEq, true_and] at h
      exact ⟨h.1 ▸ rfl, h.2 ▸ kept⟩

theorem freezePackage_artifacts {contract : SourceContract}
    (h : (freezePackage contract).result u w = (.ok (), v, w')) :
    v.generated = u.generated ∧ w'.artifacts = w.artifacts := by
  rcases freezePackage_cases contract u w with ⟨e, failed⟩ | ⟨t, froze, -⟩
  · simp [failed] at h
  · simp only [froze, Prod.mk.injEq, true_and] at h
    exact ⟨h.1 ▸ rfl, h.2 ▸ rfl⟩

theorem freezeExecutable_artifacts {modules : List RegisteredModule} {standalone : Bool}
    {runtimeDir : Option Text}
    (h : (freezeExecutable modules standalone runtimeDir).result u w = (.ok (), v, w')) :
    v.generated = u.generated ∧ w'.artifacts = w.artifacts := by
  rcases freezeExecutable_cases modules standalone runtimeDir u w with
    ⟨e, failed⟩ | ⟨t, main, froze, -⟩
  · simp [failed] at h
  · simp only [froze, Prod.mk.injEq, true_and] at h
    exact ⟨h.1 ▸ rfl, h.2 ▸ rfl⟩

theorem contribute_records : contribute.Records fun u : ScriptUnit => [u.generated] := by
  intro u w k v w' h
  simp only [contribute, result_bind, result_part, result_lift, Action.result_record,
    Action.result_ofExcept] at h
  cases registered : u.registered with
  | error e => simp [registered] at h
  | ok row =>
    simp only [registered, result_pure, Prod.mk.injEq] at h
    rw [← h.2.2]

theorem build_records (keeps : c.transpiler.KeepsArtifacts) (topic : Log.Topic) (package : Bool) :
    (build c topic package).Records fun u => [u.generated] := by
  intro u w k v w' h
  simp only [build, result_bind (part : Stage ScriptUnit _), result_part,
    result_bind (liftM (Action.note _ _ _) : Stage ScriptUnit _), result_lift,
    Action.result_note] at h
  obtain ⟨⟨⟩, u₁, w₁, transpiled, h⟩ := bind_eq_ok h
  obtain ⟨generated, same⟩ := transpile_artifacts keeps transpiled
  cases package with
  | false =>
    rw [contribute_records h, same]
    exact congrArg (w.artifacts ++ [·]) generated
  | true =>
    obtain ⟨⟨⟩, u₂, w₂, froze, h⟩ := bind_eq_ok h
    obtain ⟨generated', same'⟩ := freezePackage_artifacts froze
    rw [contribute_records h, same', same]
    exact congrArg (w.artifacts ++ [·]) (generated'.trans generated)

end ScriptUnit

/-- A descriptor is recorded if it was generated. -/
theorem DescriptorUnit.build_artifacts {u : DescriptorUnit} {k : Contribution}
    (h : u.build.result w = (.ok k, w')) :
    w'.artifacts = w.artifacts ++ (if u.isGenerated then [u.path] else []) := by
  obtain ⟨_, w₁, generated, h⟩ := Action.bind_eq_ok h
  have kept := preserves_generate (u := u) (steady_artifacts w.artifacts) (fun _ => trivial) w rfl
  rw [generated] at kept
  split at h
  · rename_i inside
    simp only [Action.result_bind, Action.result_record, Action.result_pure, Prod.mk.injEq] at h
    rw [← h.2, inside, if_pos rfl]
    exact congrArg (· ++ [u.path]) kept.1
  · rename_i outside
    rw [← (Prod.mk.inj h).2, if_neg outside, List.append_nil]
    exact kept.1

theorem DataUnit.cloneInto_artifacts (u : DataUnit) (outputRoot : Path) :
    Action.Keeps Workspace.artifacts (u.cloneInto outputRoot) :=
  Action.keeps_of_preserves fun v => preserves_cloneInto (steady_artifacts v) trivial

/-- A unit records the file that the build writes for it. -/
theorem BuildUnit.build_records (keeps : c.transpiler.KeepsArtifacts) (topic : Log.Topic)
    (package : Bool) : (build c topic package).Records fun u => u.generatedFile?.toList := by
  intro u w k v w' h
  cases u with
  | script u =>
    obtain ⟨v, built, -⟩ := form_eq_ok (r := (ScriptUnit.build c topic package).result u w) h
    rw [ScriptUnit.build_records keeps topic package built]
    rfl
  | native u =>
    simp only [build, result_ofResult, Prod.mk.injEq] at h
    rw [← h.2.2]
    exact (List.append_nil _).symm
  | descriptor u =>
    obtain ⟨built, -⟩ := lift_eq_ok (x := u.build) h
    rw [DescriptorUnit.build_artifacts built]
    change _ = w.artifacts ++ (if u.isGenerated then some u.path else none).toList
    cases u.isGenerated <;> rfl
  | data u =>
    have kept := u.cloneInto_artifacts c.dirs.output w
    obtain ⟨_, cloned, -⟩ := action_eq_ok (r := (u.cloneInto c.dirs.output).result w) h
    rw [cloned] at kept
    exact kept.trans (List.append_nil _).symm

theorem DataNode.process_artifacts (c : BuildContext) (d : DataNode) :
    Action.Keeps Workspace.artifacts (d.process c) :=
  Action.keeps_of_preserves fun v => preserves_process (steady_artifacts v) fun _ _ => trivial

theorem Part.build_records (keeps : c.transpiler.KeepsArtifacts) :
    (build c).Records fun p => p.generatedFile?.toList := by
  intro p w k p' w' h
  cases p with
  | unit u =>
    obtain ⟨v, built, -⟩ := form_eq_ok (r := (BuildUnit.build c .executable true).result u w) h
    rw [BuildUnit.build_records keeps .executable true built]
    rfl
  | data d =>
    have kept := d.process_artifacts c w
    obtain ⟨_, copied, -⟩ := action_eq_ok (r := (d.process c).result w) h
    rw [copied] at kept
    exact kept.trans (List.append_nil _).symm

/-! ## Compiling and linking -/

/-- Asks the toolchain for the objects of some sources. -/
def BuildContext.compile (c : BuildContext) (sources : List Path) (options : CompileOptions) :
    Action (List Path) := do
  Action.request (.compile sources options)
  c.toolchain.compile sources options

/-- Compiling and linking records the objects that the toolchain answers. -/
theorem BuildContext.compileAndLink_artifacts (tools : c.toolchain.KeepsArtifacts)
    {sources : List Path} {compile : CompileOptions} {kind : LinkKind} {output : Path}
    {link : LinkOptions}
    (h : (c.compileAndLink sources compile kind output link).result w = (.ok (), w')) :
    ∃ objects, ((c.compile sources compile).result w).1 = .ok objects ∧
      w'.artifacts = w.artifacts ++ objects := by
  have same : c.compileAndLink sources compile kind output link = (do
      let objects ← c.compile sources compile
      objects.forM Action.record
      Action.request (.link kind objects output link)
      c.toolchain.link kind objects output link) := by
    rw [compileAndLink, BuildContext.compile, bind_assoc]
  rw [same] at h
  obtain ⟨objects, w₁, compiled, h⟩ := Action.bind_eq_ok h
  refine ⟨objects, by rw [compiled], ?_⟩
  simp only [Action.result_bind, Action.result_forM_record, Action.result_request] at h
  have linked := tools.link kind objects output link
    { w₁ with
      requests := w₁.requests ++ [.link kind objects output link]
      artifacts := w₁.artifacts ++ objects }
  rw [h] at linked
  simp only [BuildContext.compile, Action.result_bind, Action.result_request] at compiled
  have asked := tools.compile sources compile
    { w with requests := w.requests ++ [.compile sources compile] }
  rw [compiled] at asked
  exact linked.trans (congrArg (· ++ objects) asked)

/-! ## Nodes -/

/-- Builds the units of a module and compiles their sources, and answers the objects. -/
def ModuleNode.compile (c : BuildContext) : Stage ModuleNode (List Path) := do
  let m ← Stage.part
  Action.note .info .module ("Building module ".toList ++ m.name)
  let sources ← Stage.onField units (fun units m => { m with units := units })
    (buildUnits c m.package)
  c.compile sources (c.compileOptions m.includeDirs)

theorem ModuleNode.buildUnits_records (keeps : c.transpiler.KeepsArtifacts) (package : Bool) :
    (buildUnits c package).Records (·.filterMap BuildUnit.generatedFile?) := by
  intro units w sources units' w' h
  obtain ⟨built, units₁, w₁, each, last⟩ := bind_eq_ok h
  obtain rfl : w₁ = w' := congrArg (·.2.2) last
  rw [records_each (BuildUnit.build_records keeps .module package) each]
  exact congrArg (w.artifacts ++ ·) (List.filterMap_eq_flatMap_toList _ _).symm

theorem ModuleNode.process_artifacts (transpiler : c.transpiler.KeepsArtifacts)
    (toolchain : c.toolchain.KeepsArtifacts) {m m' : ModuleNode}
    (h : (process c).result m w = (.ok (), m', w')) :
    ∃ objects, ((compile c).result m w).1 = .ok objects ∧
      w'.artifacts = w.artifacts ++ m.generatedFiles ++ objects := by
  simp only [process, result_bind (part : Stage ModuleNode _), result_part,
    result_bind (liftM (Action.note _ _ _) : Stage ModuleNode _), result_lift,
    Action.result_note] at h
  obtain ⟨sources, m₁, w₁, built, linked⟩ := bind_eq_ok h
  obtain ⟨objects, compiled, recorded⟩ :=
    BuildContext.compileAndLink_artifacts toolchain (lift_eq_ok linked).1
  refine ⟨objects, ?_, ?_⟩
  · simp only [compile, result_bind, result_part, result_lift, Action.result_note, built, compiled]
  · obtain ⟨units, built, -⟩ := onField_eq_ok built
    rw [recorded, buildUnits_records transpiler m.package built]
    rfl

namespace ExecutableNode

/-- Builds the units of an executable and compiles their sources, and answers the objects. -/
def compile (c : BuildContext) : Stage ExecutableNode (List Path) := do
  let (sources, _) ← buildAll c
  let e ← Stage.part
  c.compile sources (c.compileOptions e.includeDirs)

theorem buildMain_records (keeps : c.transpiler.KeepsArtifacts) (modules : List RegisteredModule)
    (standalone : Bool) (runtimeDir : Option Text) :
    (buildMain c modules standalone runtimeDir).Records fun u => u.generatedFile?.toList := by
  intro unit w answer unit' w' h
  cases unit with
  | native u =>
    simp only [buildMain, result_ofResult, Prod.mk.injEq] at h
    rw [← h.2.2]
    exact (List.append_nil _).symm
  | descriptor u => simp [buildMain] at h
  | data u => simp [buildMain] at h
  | script u =>
    obtain ⟨v, built, -⟩ :=
      form_eq_ok (r := (buildMainScript c modules standalone runtimeDir).result u w) h
    simp only [buildMainScript, result_bind (part : Stage ScriptUnit _), result_part,
      result_bind (liftM (Action.note _ _ _) : Stage ScriptUnit _), result_lift,
      Action.result_note] at built
    obtain ⟨⟨⟩, u₁, w₁, transpiled, built⟩ := bind_eq_ok built
    obtain ⟨⟨⟩, u₂, w₂, froze, built⟩ := bind_eq_ok built
    simp only [result_bind, result_part, result_lift, Action.result_record, result_pure,
      Prod.mk.injEq] at built
    obtain ⟨generated, same⟩ := ScriptUnit.transpile_artifacts keeps transpiled
    obtain ⟨generated', same'⟩ := ScriptUnit.freezeExecutable_artifacts froze
    rw [← built.2.2, same', same]
    exact congrArg (w.artifacts ++ [·]) (generated'.trans generated)

/-- The parts are recorded first, the main unit last. -/
theorem buildAll_artifacts (keeps : c.transpiler.KeepsArtifacts) {e e' : ExecutableNode}
    {answer : List Path × Option Path} (h : (buildAll c).result e w = (.ok answer, e', w')) :
    w'.artifacts = w.artifacts ++ e.parts.filterMap Part.generatedFile? ++
      e.main.generatedFile?.toList := by
  simp only [buildAll, result_bind (part : Stage ExecutableNode _), result_part,
    result_bind (liftM (Action.note _ _ _) : Stage ExecutableNode _), result_lift,
    Action.result_note] at h
  obtain ⟨built, e₁, w₁, each, h⟩ := bind_eq_ok h
  obtain ⟨parts, eachPart, rfl⟩ := onField_eq_ok each
  have recorded : w₁.artifacts = w.artifacts ++ e.parts.filterMap Part.generatedFile? := by
    rw [records_each (Part.build_records keeps) eachPart]
    exact congrArg (w.artifacts ++ ·) (List.filterMap_eq_flatMap_toList _ _).symm
  have assembled : ∀ w₂ : Workspace, w₂.artifacts = w₁.artifacts →
      (assemble c built).result { e with parts := parts } w₂ = (.ok answer, e', w') →
      w'.artifacts = w₁.artifacts ++ e.main.generatedFile?.toList := by
    intro w₂ same h
    rw [assemble, result_bind, result_part] at h
    dsimp only at h
    obtain ⟨⟨source, script⟩, e₂, w₃, main, h⟩ := bind_eq_ok h
    obtain ⟨unit, main, -⟩ := onField_eq_ok main
    obtain rfl : w₃ = w' := congrArg (·.2.2) h
    rw [buildMain_records keeps _ _ _ main, same]
  split at h
  · obtain ⟨libraries, e₂, w₂, lifted, h⟩ := bind_eq_ok h
    obtain ⟨copied, rfl⟩ := lift_eq_ok lifted
    have copies : Action.Preserves (fun w => w.artifacts = w₁.artifacts)
        (copyRuntimeLibraries c.layout c.dirs.output) :=
      preserves_copyRuntimeLibraries (steady_artifacts _) fun _ _ _ _ => trivial
    have kept := copies w₁ rfl
    rw [copied] at kept
    rw [assembled w₂ kept.1 h, recorded]
  · rw [assembled w₁ rfl h, recorded]

theorem process_artifacts (transpiler : c.transpiler.KeepsArtifacts)
    (toolchain : c.toolchain.KeepsArtifacts) {e e' : ExecutableNode}
    (h : (process c).result e w = (.ok (), e', w')) :
    ∃ objects, ((compile c).result e w).1 = .ok objects ∧
      w'.artifacts = w.artifacts ++ (e.parts.filterMap Part.generatedFile? ++
        e.main.generatedFile?.toList) ++ objects := by
  obtain ⟨⟨sources, script⟩, e₁, w₁, built, h⟩ := bind_eq_ok h
  dsimp only at h
  rw [link, result_bind, result_part] at h
  dsimp only at h
  obtain ⟨⟨⟩, e₂, w₂, lifted, h⟩ := bind_eq_ok h
  obtain ⟨linked, rfl⟩ := lift_eq_ok lifted
  obtain ⟨objects, compiled, recorded⟩ := BuildContext.compileAndLink_artifacts toolchain linked
  refine ⟨objects, by simp only [compile, result_bind, result_part, result_lift, built, compiled],
    ?_⟩
  have bundled : w'.artifacts = w₂.artifacts := by
    split at h
    · obtain ⟨bundled, -⟩ := lift_eq_ok h
      have kept := preserves_bundle (c := c) (e := e₂) (steady_artifacts w₂.artifacts)
        (fun _ _ hw => hw) trivial (fun _ _ _ _ => trivial) script w₂ rfl
      rw [bundled] at kept
      exact kept.1
    · exact congrArg (·.2.2.artifacts) h.symm
  rw [bundled, recorded, buildAll_artifacts transpiler built, List.append_assoc w.artifacts]

end ExecutableNode

namespace Node

/-- The objects that the toolchain answers in the build of a node. -/
def objects (c : BuildContext) (w : Workspace) : Node → Except Failure (List Path)
  | module m => ((ModuleNode.compile c).result m w).1
  | package p => ((ModuleNode.compile c).result p.module w).1
  | executable e => ((ExecutableNode.compile c).result e w).1
  | data _ => .ok []

/-- A successful build records the files that the node lists, each as often as it is listed, and then
the objects that the toolchain answered. -/
theorem artifacts_of_process (transpiler : c.transpiler.KeepsArtifacts)
    (toolchain : c.toolchain.KeepsArtifacts) {node node' : Node}
    (built : (process c).result node w = (.ok (), node', w')) :
    ∃ recorded compiled, recorded.Perm node.generatedFiles ∧
      node.objects c w = .ok compiled ∧ w'.artifacts = w.artifacts ++ recorded ++ compiled := by
  cases node with
  | module m =>
    obtain ⟨m', built, -⟩ := form_eq_ok (r := (ModuleNode.process c).result m w) built
    obtain ⟨compiled, objects, artifacts⟩ :=
      ModuleNode.process_artifacts transpiler toolchain built
    exact ⟨m.generatedFiles, compiled, .refl _, objects, artifacts⟩
  | package p =>
    obtain ⟨p', built, -⟩ := form_eq_ok (r := (PackageNode.process c).result p w) built
    obtain ⟨m', built, -⟩ := onField_eq_ok built
    obtain ⟨compiled, objects, artifacts⟩ :=
      ModuleNode.process_artifacts transpiler toolchain built
    exact ⟨p.module.generatedFiles, compiled, .refl _, objects, artifacts⟩
  | executable e =>
    obtain ⟨e', built, -⟩ := form_eq_ok (r := (ExecutableNode.process c).result e w) built
    obtain ⟨compiled, objects, artifacts⟩ :=
      ExecutableNode.process_artifacts transpiler toolchain built
    exact ⟨_, compiled, List.perm_append_comm, objects, artifacts⟩
  | data d =>
    have kept := d.process_artifacts c w
    obtain ⟨_, copied, -⟩ := action_eq_ok (r := (d.process c).result w) built
    rw [copied] at kept
    refine ⟨[], [], .refl _, rfl, ?_⟩
    rw [List.append_nil, List.append_nil]
    exact kept

/-- An executable of a script, a module of a package, a hand-written extension, and a descriptor that
is generated. -/
def described : ExecutableNode where
  name := "main".toList
  main := .script (Sample.script "main.py".toList)
  parts := [
    .unit (.script (Sample.script "a/b.py".toList)),
    .unit (.native (Sample.native "x.c".toList)),
    .unit (.descriptor ⟨⟨"main.rc".toList⟩, some {}⟩)]

/-- The build of `described` with the sample tools. -/
def describedBuild : Except Failure Unit × Node × Workspace :=
  (process Sample.context).result (.executable described) Sample.start

theorem artifacts_of_process_described :
    ∃ recorded compiled, recorded.Perm (executable described).generatedFiles ∧
      (executable described).objects Sample.context Sample.start = .ok compiled ∧
      describedBuild.2.2.artifacts = Sample.start.artifacts ++ recorded ++ compiled := by
  have succeeds : describedBuild.1 = .ok () := by decide +kernel
  have built : (process Sample.context).result (.executable described) Sample.start =
      (.ok (), describedBuild.2.1, describedBuild.2.2) := by
    rw [← succeeds, describedBuild]
  exact artifacts_of_process Sample.transpiler_keepsArtifacts Sample.toolchain_keepsArtifacts built

end Node

end NativeFreeze
