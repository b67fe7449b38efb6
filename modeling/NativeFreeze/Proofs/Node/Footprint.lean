import NativeFreeze.Proofs.FileTree.Footprint
import NativeFreeze.Proofs.Node.Artifacts
import NativeFreeze.Proofs.Node.Executable

/-!
# Which files a build writes

What a build writes can be read off its nodes: the generated files, the objects, the copies of data, the
libraries and binaries, and what is put beside a binary for its runtime. A property that outlives what
is done within a footprint outlives the build of a node that lies inside it.
-/

namespace NativeFreeze

open NativeFreeze.Action

/-- The files that a build may write, those that it may remember and later remove, and the locations at
which the scripts that it traces may leave files. -/
structure Footprint where
  writes : Path → Prop
  records : Path → Prop
  strays : Location → Prop

/-- A source whose object, if it has one, lies within a footprint. -/
def Footprint.Compiles (f : Footprint) (c : BuildContext) (source : Path) : Prop :=
  isHeader source = false →
    f.writes (objectPath source c.dirs.temp) ∧ f.records (objectPath source c.dirs.temp)

/-! ## What lies inside -/

namespace Part

/-- The files that are copied for a part. -/
def dataUnits : Part → List DataUnit
  | unit (.data u) => [u]
  | data d => d.units
  | unit (.script _) | unit (.native _) | unit (.descriptor _) => []

/-- A part whose files lie within a footprint. -/
structure Inside (c : BuildContext) (f : Footprint) (p : Part) : Prop where
  generated : ∀ q, p.generatedFile? = some q → f.writes q ∧ f.records q
  source : ∀ q, p.source? = some q → f.Compiles c q
  data : ∀ u ∈ p.dataUnits, f.writes (c.dirs.output.join u.source.input)

/-- What a build does to a script leaves it inside, since its generated file stays. -/
theorem Inside.script {c : BuildContext} {f : Footprint} {u v : ScriptUnit}
    (inside : (unit (.script u)).Inside c f) (same : v.generated = u.generated) :
    (unit (.script v)).Inside c f where
  generated q hq := inside.generated q ((congrArg some same).symm.trans hq)
  source q hq := inside.source q ((congrArg some same).symm.trans hq)
  data := nofun

end Part

/-- What is built only to be there contributes no source. -/
theorem Contribution.source_of_map {α : Type} {answer : Except Failure α} {k : Contribution}
    (h : (answer.map fun _ => {}) = .ok k) : k.source = none := by
  cases answer with
  | error e => simp [Except.map] at h
  | ok a => exact Except.ok.inj h ▸ rfl

/-- A module whose files lie within a footprint. -/
structure ModuleNode.Inside (c : BuildContext) (f : Footprint) (m : ModuleNode) : Prop where
  units : ∀ u ∈ m.units, (Part.unit u).Inside c f
  library : f.writes (m.outputPath c.dirs.output c.layout.extSuffix)

namespace ExecutableNode

/-- The archive beside a standalone executable. -/
def archive (e : ExecutableNode) (c : BuildContext) : Path :=
  (c.dirs.output.child e.runtime).child archiveName

/-- An executable whose files lie within a footprint. -/
structure Inside (c : BuildContext) (f : Footprint) (e : ExecutableNode) : Prop where
  main : (Part.unit e.main).Inside c f
  parts : ∀ p ∈ e.parts, p.Inside c f
  binary : f.writes (e.outputPath c.dirs.output)
  runtimeLibraries : e.standalone = true → ∀ library name,
    (Pattern.ofPath c.layout.runtimeLibraryPattern).Offers library →
      library.fileName? = some name → f.writes (c.dirs.output.child name)
  archive : e.standalone = true → f.writes (e.archive c)
  native : e.standalone = true → ∀ library name, c.layout.classify? library = some .native →
    library.fileName? = some name → f.writes ((c.dirs.output.child e.runtime).child name)

end ExecutableNode

/-- A node whose files lie within a footprint. -/
def Node.Inside (c : BuildContext) (f : Footprint) : Node → Prop
  | module m => m.Inside c f
  | package p => p.module.Inside c f
  | executable e => e.Inside c f
  | data d => (Part.data d).Inside c f

/-- A property that outlives all that a build does within a footprint. -/
structure BuildContext.Steady (c : BuildContext) (I : Workspace → Prop) (f : Footprint) : Prop
    extends Workspace.Steady I f.writes where
  requested : ∀ r, Preserves I (Action.request r)
  recorded : ∀ p, f.records p → Preserves I (Action.record p)
  transpiled : ∀ r, f.writes r.output → Preserves I (c.transpiler.run r)
  compiled : ∀ sources options, options.outputDir = c.dirs.temp →
    (∀ source ∈ sources, f.Compiles c source) →
      Maintains I (c.toolchain.compile sources options) fun objects => ∀ p ∈ objects, f.records p
  linked : ∀ kind objects output options, f.writes output →
    Preserves I (c.toolchain.link kind objects output options)
  traced : ∀ script, c.around.Preserves I (Trace.command c.layout script) c.traceWindow

variable {c : BuildContext} {I : Workspace → Prop} {f : Footprint}

section Steady
variable (steady : c.Steady I f)
include steady

/-! ## Units and parts -/

namespace ScriptUnit

variable {p : Path}

theorem maintains_transpile (inside : f.writes p) (package : Option Bool) :
    Stage.Preserves (fun u : ScriptUnit => u.generated = p) I (transpile c.transpiler package) := by
  refine Stage.maintains_bind Stage.maintains_part fun u _ => ?_
  split
  · exact Stage.maintains_pure trivial
  refine Stage.maintains_bind (Stage.maintains_update fun _ h => h) fun _ _ => ?_
  refine Stage.maintains_bind Stage.maintains_part fun u generated => ?_
  refine Stage.maintains_bind (Stage.maintains_lift (steady.requested _)) fun _ _ => ?_
  refine Stage.maintains_bind (Stage.maintains_lift (steady.transpiled _ ?_)) fun _ _ => ?_
  · exact generated ▸ inside
  · exact Stage.maintains_update fun _ h => h

omit steady in
theorem Patched.preserves {u : ScriptUnit} {edit : Text → Except Failure Text} {w : Workspace}
    {t : FileTree} (steady : Workspace.Steady I f.writes) (inside : f.writes u.generated)
    (patched : u.Patched edit w.files t) (hw : I w) : I { w with files := t } := by
  obtain ⟨code, out, -, -, written⟩ := patched
  exact steady.written inside (FileTree.wrote_of_write written) hw

theorem maintains_freezePackage (inside : f.writes p) (contract : SourceContract) :
    Stage.Preserves (fun u : ScriptUnit => u.generated = p) I (freezePackage contract) := by
  intro u w generated hw
  rcases freezePackage_cases contract u w with ⟨e, failed⟩ | ⟨t, froze, -, -, patched⟩
  · rw [failed]
    exact ⟨generated, hw, nofun⟩
  · rw [froze]
    refine ⟨generated, ?_, fun _ _ => trivial⟩
    split at patched
    · exact patched.preserves steady.toSteady (generated ▸ inside) hw
    · exact patched ▸ hw

theorem maintains_freezeExecutable (inside : f.writes p) (modules : List RegisteredModule)
    (standalone : Bool) (runtimeDir : Option Text) :
    Stage.Preserves (fun u : ScriptUnit => u.generated = p) I
      (freezeExecutable modules standalone runtimeDir) := by
  intro u w generated hw
  rcases freezeExecutable_cases modules standalone runtimeDir u w with
    ⟨e, failed⟩ | ⟨t, main, froze, -, -, patched⟩
  · rw [failed]
    exact ⟨generated, hw, nofun⟩
  · rw [froze]
    exact ⟨generated, patched.preserves steady.toSteady (generated ▸ inside) hw,
      fun _ _ => trivial⟩

theorem maintains_contribute (inside : f.records p) :
    Stage.Maintains (fun u : ScriptUnit => u.generated = p) I contribute
      fun k => k.source = some p := by
  refine Stage.maintains_bind Stage.maintains_part fun u generated => ?_
  subst generated
  refine Stage.maintains_bind (Stage.maintains_lift (steady.recorded _ inside)) fun _ _ => ?_
  refine Stage.maintains_bind (Stage.maintains_lift (maintains_ofExcept fun _ _ => trivial))
    fun row (_ : True) => ?_
  exact Stage.maintains_pure rfl

theorem maintains_build (written : f.writes p) (recorded : f.records p) (topic : Log.Topic)
    (package : Bool) :
    Stage.Maintains (fun u : ScriptUnit => u.generated = p) I (build c topic package)
      fun k => k.source = some p := by
  refine Stage.maintains_bind Stage.maintains_part fun u _ => ?_
  refine Stage.maintains_bind (Stage.maintains_lift (preserves_note steady.toSteady _ _ _))
    fun _ _ => ?_
  refine Stage.maintains_bind (maintains_transpile steady written _) fun _ _ => ?_
  cases package with
  | false => exact maintains_contribute steady recorded
  | true =>
    exact Stage.maintains_bind (maintains_freezePackage steady written _) fun _ _ =>
      maintains_contribute steady recorded

end ScriptUnit

theorem DescriptorUnit.maintains_build {u : DescriptorUnit}
    (inside : u.isGenerated = true → f.writes u.path ∧ f.records u.path) :
    Maintains I u.build fun k => k.source = some u.path := by
  have generates := preserves_generate steady.toSteady fun generated => (inside generated).1
  refine maintains_bind generates fun _ _ => ?_
  split
  · rename_i generated
    exact maintains_bind (steady.recorded _ (inside generated).2) fun _ _ => maintains_pure rfl
  · exact maintains_pure rfl

/-- A unit stays inside a footprint when it is built, and what it contributes can be compiled
there. -/
theorem BuildUnit.maintains_build (topic : Log.Topic) (package : Bool) :
    Stage.Maintains (fun u => (Part.unit u).Inside c f) I (build c topic package)
      fun k => ∀ source, k.source = some source → f.Compiles c source := by
  intro u w inside hw
  cases u with
  | script u =>
    obtain ⟨written, recorded⟩ := inside.generated u.generated rfl
    obtain ⟨generated, kept, answered⟩ :=
      ScriptUnit.maintains_build steady written recorded topic package u w rfl hw
    rcases built : (ScriptUnit.build c topic package).result u w with ⟨answer, v, w₁⟩
    rw [built] at generated kept answered
    simp only [build, Stage.result_ofResult, built]
    refine ⟨inside.script generated, kept, fun k answer source hs => ?_⟩
    exact inside.source source ((answered k answer).symm.trans hs)
  | native u =>
    refine ⟨inside, hw, fun k answer source hs => ?_⟩
    rw [← Except.ok.inj answer] at hs
    exact inside.source source hs
  | descriptor u =>
    have generated (h : u.isGenerated = true) : f.writes u.path ∧ f.records u.path :=
      inside.generated u.path (if_pos h)
    obtain ⟨kept, answered⟩ := DescriptorUnit.maintains_build steady generated w hw
    refine ⟨inside, kept, fun k answer source hs => ?_⟩
    exact inside.source source ((answered k answer).symm.trans hs)
  | data u =>
    have clones : Preserves I (u.cloneInto c.dirs.output) :=
      DataUnit.preserves_cloneInto steady.toSteady (inside.data u List.mem_cons_self)
    refine ⟨inside, (clones w hw).1, fun k answer source hs => ?_⟩
    simp [Contribution.source_of_map answer] at hs

theorem Part.maintains_build :
    Stage.Maintains (fun p => p.Inside c f) I (build c)
      fun k => ∀ source, k.source = some source → f.Compiles c source := by
  intro p w inside hw
  cases p with
  | unit u => exact BuildUnit.maintains_build steady .executable true u w inside hw
  | data d =>
    have copies : Preserves I (d.process c) :=
      DataNode.preserves_process steady.toSteady inside.data
    refine ⟨inside, (copies w hw).1, fun k answer source hs => ?_⟩
    simp [Contribution.source_of_map answer] at hs

/-! ## Nodes -/

theorem BuildContext.preserves_compileAndLink {sources : List Path} {includeDirs : List Path}
    {kind : LinkKind} {output : Path} {link : LinkOptions}
    (compiles : ∀ source ∈ sources, f.Compiles c source) (written : f.writes output) :
    Preserves I (c.compileAndLink sources (c.compileOptions includeDirs) kind output link) := by
  refine maintains_bind (steady.requested _) fun _ _ => ?_
  refine maintains_bind (steady.compiled _ _ rfl compiles) fun objects recorded => ?_
  refine maintains_bind (preserves_forM fun p hp => steady.recorded p (recorded p hp)) fun _ _ => ?_
  refine maintains_bind (steady.requested _) fun _ _ => ?_
  exact steady.linked _ _ _ _ written

theorem ModuleNode.maintains_buildUnits (package : Bool) :
    Stage.Maintains (fun units => ∀ u ∈ units, (Part.unit u).Inside c f) I (buildUnits c package)
      fun sources => ∀ source ∈ sources, f.Compiles c source := by
  refine Stage.maintains_bind (Stage.maintains_each (BuildUnit.maintains_build steady _ _))
    fun built compiles => Stage.maintains_pure fun source hs => ?_
  obtain ⟨k, hk, contributed⟩ := List.mem_filterMap.mp hs
  exact compiles k hk source contributed

theorem ModuleNode.maintains_process :
    Stage.Preserves (fun m : ModuleNode => m.Inside c f) I (process c) := by
  refine Stage.maintains_bind Stage.maintains_part fun m inside => ?_
  refine Stage.maintains_bind (Stage.maintains_lift (preserves_note steady.toSteady _ _ _))
    fun _ _ => ?_
  refine Stage.maintains_bind (Stage.maintains_onField (fun _ inside => inside.units)
    (fun _ _ inside built => ⟨built, inside.library⟩) (maintains_buildUnits steady m.package))
    fun sources compiles => ?_
  exact Stage.maintains_lift (BuildContext.preserves_compileAndLink steady compiles inside.library)

namespace ExecutableNode

theorem maintains_buildMainScript {p : Path} (written : f.writes p) (recorded : f.records p)
    (modules : List RegisteredModule) (standalone : Bool) (runtimeDir : Option Text) :
    Stage.Maintains (fun u : ScriptUnit => u.generated = p) I
      (buildMainScript c modules standalone runtimeDir) fun answer => answer.1 = p := by
  refine Stage.maintains_bind Stage.maintains_part fun u _ => ?_
  refine Stage.maintains_bind (Stage.maintains_lift (preserves_note steady.toSteady _ _ _))
    fun _ _ => ?_
  refine Stage.maintains_bind (ScriptUnit.maintains_transpile steady written _) fun _ _ => ?_
  refine Stage.maintains_bind (ScriptUnit.maintains_freezeExecutable steady written _ _ _)
    fun _ _ => ?_
  refine Stage.maintains_bind Stage.maintains_part fun u generated => ?_
  subst generated
  refine Stage.maintains_bind (Stage.maintains_lift (steady.recorded _ recorded)) fun _ _ => ?_
  exact Stage.maintains_pure rfl

theorem maintains_buildMain (modules : List RegisteredModule) (standalone : Bool)
    (runtimeDir : Option Text) :
    Stage.Maintains (fun u => (Part.unit u).Inside c f) I
      (buildMain c modules standalone runtimeDir) fun answer => f.Compiles c answer.1 := by
  intro u w inside hw
  cases u with
  | script u =>
    obtain ⟨written, recorded⟩ := inside.generated u.generated rfl
    obtain ⟨generated, kept, answered⟩ := maintains_buildMainScript steady written recorded
      modules standalone runtimeDir u w rfl hw
    rcases built : (buildMainScript c modules standalone runtimeDir).result u w with
      ⟨answer, v, w₁⟩
    rw [built] at generated kept answered
    simp only [buildMain, Stage.result_ofResult, built]
    refine ⟨inside.script generated, kept, fun a answer => inside.source _ ?_⟩
    rw [answered a answer]
    rfl
  | native u =>
    refine ⟨inside, hw, fun a answer => inside.source _ ?_⟩
    rw [← Except.ok.inj answer]
    rfl
  | descriptor u => exact ⟨inside, hw, fun a answer => by simp [buildMain] at answer⟩
  | data u => exact ⟨inside, hw, fun a answer => by simp [buildMain] at answer⟩

theorem maintains_assemble {built : List Contribution}
    (compiles : ∀ k ∈ built, ∀ source, k.source = some source → f.Compiles c source) :
    Stage.Maintains (fun e : ExecutableNode => e.Inside c f) I (assemble c built)
      fun answer => ∀ source ∈ answer.1, f.Compiles c source := by
  refine Stage.maintains_bind Stage.maintains_part fun e _ => ?_
  refine Stage.maintains_bind (Stage.maintains_onField (fun _ inside => inside.main)
    (fun _ _ inside built => { inside with main := built })
    (maintains_buildMain steady (built.filterMap Contribution.registered) e.standalone
      e.runtimeDir)) fun answer compiled => Stage.maintains_pure ?_
  refine List.forall_mem_cons.mpr ⟨compiled, fun source hs => ?_⟩
  obtain ⟨k, hk, contributed⟩ := List.mem_filterMap.mp hs
  exact compiles k hk source contributed

theorem maintains_buildAll :
    Stage.Maintains (fun e : ExecutableNode => e.Inside c f) I (buildAll c)
      fun answer => ∀ source ∈ answer.1, f.Compiles c source := by
  refine Stage.maintains_bind Stage.maintains_part fun e inside => ?_
  refine Stage.maintains_bind (Stage.maintains_lift (preserves_note steady.toSteady _ _ _))
    fun _ _ => ?_
  refine Stage.maintains_bind (Stage.maintains_onField (fun _ inside => inside.parts)
    (fun _ _ inside built => { inside with parts := built })
    (Stage.maintains_each (Part.maintains_build steady))) fun built compiles => ?_
  split
  · rename_i standalone
    have copies := preserves_copyRuntimeLibraries steady.toSteady
      (inside.runtimeLibraries standalone)
    exact Stage.maintains_bind (Stage.maintains_lift copies) fun _ _ =>
      maintains_assemble steady compiles
  · exact maintains_assemble steady compiles

theorem maintains_link {sources : List Path} (compiles : ∀ source ∈ sources, f.Compiles c source)
    (script : Option Path) :
    Stage.Preserves (fun e : ExecutableNode => e.Inside c f) I (link c sources script) := by
  refine Stage.maintains_bind Stage.maintains_part fun e inside => ?_
  refine Stage.maintains_bind (Stage.maintains_lift
    (BuildContext.preserves_compileAndLink steady compiles inside.binary)) fun _ _ => ?_
  split
  · rename_i standalone
    exact Stage.maintains_lift (preserves_bundle steady.toSteady steady.traced
      (inside.archive standalone) (inside.native standalone) script)
  · exact Stage.maintains_pure trivial

theorem maintains_process :
    Stage.Preserves (fun e : ExecutableNode => e.Inside c f) I (process c) :=
  Stage.maintains_bind (maintains_buildAll steady) fun answer compiles =>
    maintains_link steady compiles answer.2

end ExecutableNode

/-- A node stays inside a footprint when it is built, and the build does nothing outside. -/
theorem Node.maintains_process : Stage.Preserves (Inside c f) I (process c) := by
  intro node w inside hw
  cases node with
  | module m => exact ModuleNode.maintains_process steady m w inside hw
  | package p => exact ModuleNode.maintains_process steady p.module w inside hw
  | executable e => exact ExecutableNode.maintains_process steady e w inside hw
  | data d =>
    have copies : Preserves I (d.process c) :=
      DataNode.preserves_process steady.toSteady inside.data
    exact ⟨inside, (copies w hw).1, fun _ _ => trivial⟩

end Steady

end NativeFreeze
