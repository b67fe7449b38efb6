import NativeFreeze.Proofs.Turns

/-!
# The turns of a node

Each part of a node has a turn, in which its generated file is written, and all objects have one, in
which the sources are compiled. What is copied, linked or packed takes no turn.
-/

namespace NativeFreeze

open NativeFreeze.Action NativeFreeze.Stage

variable {α β γ : Type} {c : BuildContext} {f : Footprint} {t : FileTree}

/-! ## Objects -/

/-- The objects of sources: headers have none. -/
def objectPaths (sources : List Path) (outputDir : Path) : List Path :=
  (sources.filter fun source => !isHeader source).map (objectPath · outputDir)

/-- A toolchain that, if it succeeds, answers the objects of the sources that it was given. -/
def Toolchain.AnswersObjects (tools : Toolchain) : Prop :=
  ∀ sources options w objects, ((tools.compile sources options).result w).1 = .ok objects →
    objects = objectPaths sources options.outputDir

theorem Action.mapM_eq_ok {x : α → Action β} {g : α → β}
    (one : ∀ a w b w', (x a).result w = (.ok b, w') → b = g a) {as : List α} {bs : List β}
    {w w' : Workspace} (h : (as.mapM x).result w = (.ok bs, w')) : bs = as.map g := by
  induction as generalizing w bs with
  | nil => exact (Except.ok.inj (congrArg Prod.fst h)).symm
  | cons a as ih =>
    rw [List.mapM_cons] at h
    obtain ⟨b, w₁, first, h⟩ := Action.bind_eq_ok h
    obtain ⟨others, w₂, later, h⟩ := Action.bind_eq_ok h
    obtain rfl : b :: others = bs := Except.ok.inj (congrArg Prod.fst h)
    obtain rfl : w₂ = w' := congrArg Prod.snd h
    rw [List.map_cons, one a w b w₁ first, ih later]

theorem Compiler.toolchain_answersObjects (around : Surroundings) (compiler : Text) :
    (toolchain around compiler).AnswersObjects := by
  intro sources options w objects answer
  refine Action.mapM_eq_ok (fun source w object w' h => ?_) (Action.result_eq_of_ok answer)
  obtain ⟨⟨⟩, w₁, -, h⟩ := Action.bind_eq_ok h
  obtain ⟨⟨⟩, w₂, -, h⟩ := Action.bind_eq_ok h
  obtain ⟨⟨⟩, w₃, -, h⟩ := Action.bind_eq_ok h
  exact (Except.ok.inj (congrArg Prod.fst h)).symm

theorem Sample.compiler_answersObjects : Sample.compiler.AnswersObjects :=
  fun _ _ _ _ answer => (Except.ok.inj answer).symm

/-! ## Units and parts -/

theorem ScriptUnit.finishes_contribute {u v : ScriptUnit} (same : v.generated = u.generated) :
    Finishes f t (contribute.toAction v) [u.generated] fun r => r.1.source = some u.generated := by
  rw [← same]
  simp only [contribute, toAction_bind, toAction_part, toAction_lift, toAction_pure, pure_bind,
    bind_assoc]
  refine finishes_record (fun w => rfl) ?_
  have looks : Takes f t (Action.ofExcept v.registered) [] fun _ => True :=
    takes_nothing fun _ _ => maintains_ofExcept fun _ _ => trivial
  exact takes_bind_nothing looks fun row _ => takes_pure rfl

/-- A step in the turn of a script writes to its generated file only, and keeps it. -/
theorem ScriptUnit.finishes_step {x : Stage ScriptUnit Unit} {u v : ScriptUnit}
    {next : Unit × ScriptUnit → Action α} {Q : α → Prop}
    (kept : ∀ known remembered, (f.adding known).writes u.generated →
      Stage.Preserves (fun s => s.generated = u.generated) (f.Known t known remembered) x)
    (same : v.generated = u.generated)
    (goOn : ∀ v : ScriptUnit, v.generated = u.generated →
      Finishes f t (next ((), v)) [u.generated] Q) :
    Finishes f t (x.toAction v >>= next) [u.generated] Q := by
  have steps (known remembered : List Path) (inside : [u.generated] ⊆ known) :
      Maintains (f.Known t known remembered) (x.toAction v)
        fun r => True ∧ r.2.generated = u.generated :=
    (kept known remembered (.inl (inside List.mem_cons_self))).toAction same
  exact finishes_bind steps fun r after => goOn r.2 after.2

section Orderly
variable (orderly : c.Orderly f.strays)
include orderly

section Note
variable {level : Log.Level} {topic : Log.Topic} {message : Text} {next : Unit → Action α}
  {Q : α → Prop}

theorem takes_note {turns : List (List Path)} (goOn : Takes f t (next ()) turns Q) :
    Takes f t (note level topic message >>= next) turns Q := by
  have notes : Takes f t (note level topic message) [] fun _ => True :=
    takes_nothing fun _ _ => preserves_note (Footprint.steady_known orderly).toSteady _ _ _
  exact takes_bind_nothing notes fun _ _ => goOn

theorem finishes_note {turn : List Path} (goOn : Finishes f t (next ()) turn Q) :
    Finishes f t (note level topic message >>= next) turn Q :=
  finishes_bind (fun _ _ _ => preserves_note (Footprint.steady_known orderly).toSteady _ _ _)
    fun _ _ => goOn

end Note

namespace ScriptUnit

theorem takes_build (u : ScriptUnit) (topic : Log.Topic) (package : Bool) :
    Takes f t ((build c topic package).toAction u) [[u.generated]]
      fun r => r.1.source = some u.generated := by
  refine takes_of_finishes ?_
  simp only [build, toAction_bind, toAction_part, toAction_lift, pure_bind, bind_assoc]
  refine finishes_note orderly ?_
  refine finishes_step (fun known remembered inside => maintains_transpile
    (Footprint.steady_known orderly) inside _) rfl fun v same => ?_
  cases package with
  | false => exact finishes_contribute same
  | true =>
    rw [if_pos rfl, toAction_bind]
    exact finishes_step (fun known remembered inside => maintains_freezePackage
      (Footprint.steady_known orderly) inside _) same fun v same => finishes_contribute same

end ScriptUnit

theorem DescriptorUnit.takes_build (u : DescriptorUnit) :
    Takes f t u.build [(if u.isGenerated then some u.path else none).toList]
      fun k => k.source = some u.path := by
  cases generated : u.isGenerated with
  | false =>
    have generates : Takes f t u.generate [] fun _ => True := takes_nothing fun _ _ =>
      preserves_generate (Footprint.steady_known orderly).toSteady (by simp [generated])
    refine (takes_bind_nothing generates fun _ _ => ?_).blank
    rw [if_neg (by simp [generated])]
    exact takes_pure rfl
  | true =>
    have generates (known remembered : List Path) (inside : [u.path] ⊆ known) :
        Preserves (f.Known t known remembered) u.generate :=
      preserves_generate (Footprint.steady_known orderly).toSteady fun _ =>
        .inl (inside List.mem_cons_self)
    refine takes_of_finishes (finishes_bind generates fun _ _ => ?_)
    rw [if_pos generated]
    exact finishes_record (fun _ => rfl) (takes_pure rfl)

theorem DataUnit.takes_cloneInto {u : DataUnit} {outputRoot : Path}
    (inside : f.writes (outputRoot.join u.source.input)) :
    Takes f t (u.cloneInto outputRoot) [] fun _ => True :=
  takes_nothing fun _ _ =>
    preserves_cloneInto (Footprint.steady_known orderly).toSteady (.inr inside)

theorem BuildUnit.takes_build {unit : BuildUnit} (topic : Log.Topic) (package : Bool)
    (copies : ∀ u ∈ (Part.unit unit).dataUnits, f.writes (c.dirs.output.join u.source.input)) :
    Takes f t ((build c topic package).toAction unit) [unit.generatedFile?.toList]
      fun r => r.1.source = (Part.unit unit).source? := by
  cases unit with
  | script u =>
    rw [toAction_form (y := ScriptUnit.build c topic package) fun _ => rfl]
    exact takes_map (u.takes_build orderly topic package) fun _ same => same
  | native u =>
    refine Takes.blank ?_
    exact takes_pure rfl
  | descriptor u =>
    change Takes f t ((liftM u.build : Stage BuildUnit _).toAction (.descriptor u)) _ _
    rw [toAction_lift]
    exact takes_map (u.takes_build orderly) fun _ same => same
  | data u =>
    rw [toAction_task (y := u.cloneInto c.dirs.output) fun _ => rfl]
    refine Takes.blank (takes_map (u.takes_cloneInto orderly (copies u List.mem_cons_self)) ?_)
    exact fun _ _ => rfl

theorem DataNode.takes_process {d : DataNode}
    (copies : ∀ u ∈ d.units, f.writes (c.dirs.output.join u.source.input)) :
    Takes f t (d.process c) [] fun _ => True :=
  takes_nothing fun _ _ =>
    preserves_process (Footprint.steady_known orderly).toSteady fun u hu => .inr (copies u hu)

theorem Part.takes_build {p : Part}
    (copies : ∀ u ∈ p.dataUnits, f.writes (c.dirs.output.join u.source.input)) :
    Takes f t ((build c).toAction p) [p.generatedFile?.toList] fun r => r.1.source = p.source? := by
  cases p with
  | unit u =>
    rw [toAction_form (y := BuildUnit.build c .executable true) fun _ => rfl]
    exact takes_map (BuildUnit.takes_build orderly _ _ copies) fun _ same => same
  | data d =>
    rw [toAction_task (y := d.process c) fun _ => rfl]
    refine Takes.blank (takes_map (d.takes_process orderly copies) ?_)
    exact fun _ _ => rfl

/-! ## Compiling and linking -/

/-- Objects are remembered when all are there. -/
theorem BuildContext.takes_compileAndLink (answers : c.toolchain.AnswersObjects)
    {sources includeDirs : List Path} {kind : LinkKind} {output : Path} {link : LinkOptions}
    (inside : f.writes output) :
    Takes f t (c.compileAndLink sources (c.compileOptions includeDirs) kind output link)
      [objectPaths sources c.dirs.temp] fun _ => True := by
  refine takes_of_finishes (finishes_bind
    (fun _ _ _ => (Footprint.steady_known orderly).requested _) fun _ _ => ?_)
  have compiles (known remembered : List Path)
      (inside : objectPaths sources c.dirs.temp ⊆ known) :
      Maintains (f.Known t known remembered)
        (c.toolchain.compile sources (c.compileOptions includeDirs))
        fun objects => objects = objectPaths sources c.dirs.temp := by
    intro w h
    refine ⟨⟨⟨h.within.change (orderly.compiles _ _ w) ?_, nofun⟩,
      (orderly.toolchain.compile _ _ w).trans h.artifacts⟩, answers _ _ w⟩
    rintro l ⟨source, hs, compiled, heads⟩
    refine h.within.written (.inl (inside ?_)) heads
    exact List.mem_map.mpr ⟨source, List.mem_filter.mpr ⟨hs, by simp [compiled]⟩, rfl⟩
  refine finishes_bind compiles fun objects same => ?_
  subst same
  refine finishes_record (result_forM_record _) (takes_nothing fun known remembered => ?_)
  have steady : c.Steady (f.Known t known remembered) (f.adding known) :=
    Footprint.steady_known orderly
  exact maintains_bind (steady.requested _) fun _ _ => steady.linked _ _ _ _ (.inr inside)

/-! ## Nodes -/

omit orderly in
theorem filterMap_eq_of_map_eq {as : List α} {bs : List β} {g : α → Option γ} {k : β → Option γ}
    (h : as.map g = bs.map k) : as.filterMap g = bs.filterMap k := by
  have cut := congrArg (List.filterMap id) h
  rwa [List.filterMap_map, List.filterMap_map] at cut

theorem ModuleNode.takes_process (answers : c.toolchain.AnswersObjects) {m : ModuleNode}
    (copies : ∀ u ∈ m.units, ∀ d ∈ (Part.unit u).dataUnits,
      f.writes (c.dirs.output.join d.source.input))
    (library : f.writes (m.outputPath c.dirs.output c.layout.extSuffix)) :
    Takes f t ((process c).toAction m)
      (m.units.map (fun u => u.generatedFile?.toList) ++
        [objectPaths (m.units.filterMap fun u => (Part.unit u).source?) c.dirs.temp])
      fun _ => True := by
  simp only [process, buildUnits, toAction_bind, toAction_part, toAction_lift, toAction_onField,
    toAction_pure, pure_bind, bind_assoc]
  refine takes_note orderly ?_
  refine takes_bind (takes_each fun u hu => BuildUnit.takes_build orderly _ _ (copies u hu))
    fun r contributed => ?_
  rw [filterMap_eq_of_map_eq contributed]
  exact takes_map (BuildContext.takes_compileAndLink orderly answers library) fun _ _ => trivial

namespace ExecutableNode

theorem takes_buildMain (main : BuildUnit) (modules : List RegisteredModule) (standalone : Bool)
    (runtimeDir : Option Text) :
    Takes f t ((buildMain c modules standalone runtimeDir).toAction main)
      [main.generatedFile?.toList] fun r => (Part.unit main).source? = some r.1.1 := by
  cases main with
  | script u =>
    rw [toAction_form (y := buildMainScript c modules standalone runtimeDir) fun _ => rfl]
    have takes : Takes f t ((buildMainScript c modules standalone runtimeDir).toAction u)
        [[u.generated]] fun r => r.1.1 = u.generated := by
      refine takes_of_finishes ?_
      simp only [buildMainScript, toAction_bind, toAction_part, toAction_lift, toAction_pure,
        pure_bind, bind_assoc]
      refine finishes_note orderly ?_
      refine ScriptUnit.finishes_step (fun _ _ inside => ScriptUnit.maintains_transpile
        (Footprint.steady_known orderly) inside _) rfl fun v same => ?_
      refine ScriptUnit.finishes_step (fun _ _ inside => ScriptUnit.maintains_freezeExecutable
        (Footprint.steady_known orderly) inside _ _ _) same fun v same => ?_
      rw [← same]
      exact finishes_record (fun _ => rfl) (takes_pure rfl)
    exact takes_map takes fun _ same => congrArg some same.symm
  | native u =>
    refine Takes.blank ?_
    exact takes_pure rfl
  | descriptor u => exact takes_throw _
  | data u => exact takes_throw _

/-- An executable whose units are built differs in its units only. -/
def Rebuilt (e e' : ExecutableNode) : Prop :=
  ∃ main parts, e' = { e with main := main, parts := parts }

theorem takes_assemble (e : ExecutableNode) (built : List Contribution) :
    Takes f t ((assemble c built).toAction e) [e.main.generatedFile?.toList]
      fun r => r.1.1 = (Part.unit e.main).source?.toList ++ built.filterMap Contribution.source ∧
        e.Rebuilt r.2 := by
  simp only [assemble, toAction_bind, toAction_part, toAction_onField, toAction_pure, pure_bind,
    bind_assoc]
  refine takes_map (takes_buildMain orderly e.main _ _ _) fun r source => ⟨?_, r.2, e.parts, rfl⟩
  rw [source]
  rfl

theorem takes_buildAll {e : ExecutableNode}
    (copies : ∀ p ∈ e.parts, ∀ u ∈ p.dataUnits, f.writes (c.dirs.output.join u.source.input))
    (runtimeLibraries : e.standalone = true → ∀ library name,
      (Pattern.ofPath c.layout.runtimeLibraryPattern).Offers library →
        library.fileName? = some name → f.writes (c.dirs.output.child name)) :
    Takes f t ((buildAll c).toAction e)
      (e.parts.map (fun p => p.generatedFile?.toList) ++ [e.main.generatedFile?.toList])
      fun r => r.1.1 = (Part.unit e.main).source?.toList ++ e.parts.filterMap Part.source? ∧
        e.Rebuilt r.2 := by
  simp only [buildAll, toAction_bind, toAction_part, toAction_lift, toAction_onField, pure_bind,
    bind_assoc]
  refine takes_note orderly ?_
  refine takes_bind (takes_each fun p hp => Part.takes_build orderly (copies p hp))
    fun r contributed => ?_
  have assembles := takes_assemble (t := t) orderly { e with parts := r.2 } r.1
  rw [filterMap_eq_of_map_eq contributed] at assembles
  split
  · rename_i standalone
    rw [toAction_bind, toAction_lift, bind_assoc]
    have copied : Takes f t (copyRuntimeLibraries c.layout c.dirs.output) [] fun _ => True :=
      takes_nothing fun _ _ =>
        preserves_copyRuntimeLibraries (Footprint.steady_known orderly).toSteady
          fun library name offered named =>
            .inr (runtimeLibraries standalone library name offered named)
    exact takes_bind_nothing copied fun _ _ => assembles
  · exact assembles

theorem takes_link (answers : c.toolchain.AnswersObjects) {e : ExecutableNode}
    (binary : f.writes (e.outputPath c.dirs.output))
    (archive : e.standalone = true → f.writes (e.archive c))
    (native : e.standalone = true → ∀ library name, c.layout.classify? library = some .native →
      library.fileName? = some name → f.writes ((c.dirs.output.child e.runtime).child name))
    (sources : List Path) (script : Option Path) :
    Takes f t ((link c sources script).toAction e) [objectPaths sources c.dirs.temp]
      fun _ => True := by
  simp only [link, toAction_bind, toAction_part, toAction_lift, pure_bind, bind_assoc]
  rw [← List.append_nil [_]]
  refine takes_bind (BuildContext.takes_compileAndLink orderly answers binary) fun _ _ => ?_
  split
  · rename_i standalone
    rw [toAction_lift]
    have bundles : Takes f t (e.bundle c script) [] fun _ => True := by
      refine takes_nothing fun known remembered => ?_
      have steady : c.Steady (f.Known t known remembered) (f.adding known) :=
        Footprint.steady_known orderly
      exact preserves_bundle steady.toSteady steady.traced (.inr (archive standalone))
        (fun library name kind named => .inr (native standalone library name kind named)) script
    exact takes_map bundles fun _ _ => trivial
  · exact takes_pure trivial

theorem takes_process (answers : c.toolchain.AnswersObjects) {e : ExecutableNode}
    (copies : ∀ p ∈ e.parts, ∀ u ∈ p.dataUnits, f.writes (c.dirs.output.join u.source.input))
    (binary : f.writes (e.outputPath c.dirs.output))
    (runtimeLibraries : e.standalone = true → ∀ library name,
      (Pattern.ofPath c.layout.runtimeLibraryPattern).Offers library →
        library.fileName? = some name → f.writes (c.dirs.output.child name))
    (archive : e.standalone = true → f.writes (e.archive c))
    (native : e.standalone = true → ∀ library name, c.layout.classify? library = some .native →
      library.fileName? = some name → f.writes ((c.dirs.output.child e.runtime).child name)) :
    Takes f t ((process c).toAction e)
      (e.parts.map (fun p => p.generatedFile?.toList) ++ [e.main.generatedFile?.toList] ++
        [objectPaths ((Part.unit e.main).source?.toList ++ e.parts.filterMap Part.source?)
          c.dirs.temp])
      fun _ => True := by
  rw [process, toAction_bind]
  refine takes_bind (takes_buildAll orderly copies runtimeLibraries) fun r built => ?_
  obtain ⟨sources, main, parts, same⟩ := built
  rw [same, ← sources]
  exact takes_link orderly answers (e := { e with main := main, parts := parts }) binary archive
    native _ _

end ExecutableNode

end Orderly

namespace Node

/-- The parts of a node in the order in which they are built. -/
def parts : Node → List Part
  | module m => m.units.map .unit
  | package p => p.module.units.map .unit
  | executable e => e.parts ++ [.unit e.main]
  | data d => [.data d]

/-- The files that are compiled for a node. -/
def sources : Node → List Path
  | module m => m.units.filterMap fun u => (Part.unit u).source?
  | package p => p.module.units.filterMap fun u => (Part.unit u).source?
  | executable e => (Part.unit e.main).source?.toList ++ e.parts.filterMap Part.source?
  | data _ => []

/-- The files that the build of a node makes to remember them, by turns: the generated file of each
part, and then all objects. -/
def turns (c : BuildContext) (node : Node) : List (List Path) :=
  node.parts.map (fun p => p.generatedFile?.toList) ++ [objectPaths node.sources c.dirs.temp]

/-- The files that the build of a node puts in the output directory. -/
inductive Puts (c : BuildContext) : Node → Path → Prop
  | copy {node : Node} {p : Part} {u : DataUnit} (part : p ∈ node.parts) (unit : u ∈ p.dataUnits) :
      Puts c node (c.dirs.output.join u.source.input)
  | library (m : ModuleNode) :
      Puts c (module m) (m.outputPath c.dirs.output c.layout.extSuffix)
  | packageLibrary (p : PackageNode) :
      Puts c (package p) (p.module.outputPath c.dirs.output c.layout.extSuffix)
  | binary (e : ExecutableNode) : Puts c (executable e) (e.outputPath c.dirs.output)
  | runtimeLibrary {e : ExecutableNode} {library : Path} {name : Text}
      (standalone : e.standalone = true)
      (offered : (Pattern.ofPath c.layout.runtimeLibraryPattern).Offers library)
      (named : library.fileName? = some name) : Puts c (executable e) (c.dirs.output.child name)
  | archive {e : ExecutableNode} (standalone : e.standalone = true) :
      Puts c (executable e) (e.archive c)
  | native {e : ExecutableNode} {library : Path} {name : Text} (standalone : e.standalone = true)
      (kind : c.layout.classify? library = some .native) (named : library.fileName? = some name) :
      Puts c (executable e) ((c.dirs.output.child e.runtime).child name)

/-- What the build of a node writes beside the files that it remembers. -/
def others (c : BuildContext) (strays : Location → Prop) (node : Node) : Footprint where
  writes := node.Puts c
  records _ := False
  strays := strays

variable {strays : Location → Prop}

theorem takes_process (orderly : c.Orderly strays) (answers : c.toolchain.AnswersObjects)
    (node : Node) :
    Takes (node.others c strays) t ((process c).toAction node) (node.turns c) fun _ => True := by
  cases node with
  | module m =>
    rw [toAction_form (y := ModuleNode.process c) fun _ => rfl, turns, parts, List.map_map]
    refine takes_map (ModuleNode.takes_process orderly answers (fun u hu d hd => ?_) (.library m))
      fun _ _ => trivial
    exact .copy (List.mem_map.mpr ⟨u, hu, rfl⟩) hd
  | package p =>
    rw [toAction_form (y := PackageNode.process c) fun _ => rfl, PackageNode.process,
      toAction_onField, turns, parts, List.map_map]
    have built : Takes ((package p).others c strays) t ((ModuleNode.process c).toAction p.module)
        _ fun _ => True :=
      ModuleNode.takes_process orderly answers
        (fun u hu d hd => .copy (List.mem_map.mpr ⟨u, hu, rfl⟩) hd) (.packageLibrary p)
    rw [bind_assoc]
    exact takes_map built fun _ _ => trivial
  | executable e =>
    rw [toAction_form (y := ExecutableNode.process c) fun _ => rfl, turns, parts, List.map_append]
    refine takes_map (ExecutableNode.takes_process orderly answers (fun p hp u hu => ?_) (.binary e)
      (fun standalone _ _ => .runtimeLibrary standalone) .archive
      fun standalone _ _ => .native standalone) fun _ _ => trivial
    exact .copy (List.mem_append_left _ hp) hu
  | data d =>
    rw [toAction_task (y := d.process c) fun _ => rfl]
    change Takes _ _ _ ([[]] ++ [[]]) _
    have copies : ∀ u ∈ d.units, (data d).Puts c (c.dirs.output.join u.source.input) :=
      fun u hu => .copy (List.mem_singleton_self (Part.data d)) hu
    exact takes_bind (d.takes_process orderly copies).blank fun _ _ => (takes_pure trivial).blank

end Node

end NativeFreeze
