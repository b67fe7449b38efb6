import NativeFreeze.Proofs.Node.Cleanup
import NativeFreeze.Proofs.Node.Footprint

/-!
# What a run changes

Tools are orderly if they write what they are asked for and nothing else, apart from the files that a
traced script leaves behind. With orderly tools, a run over nodes within a footprint writes files of the
footprint only, and removes only files that it records, if it cleans up at all.
-/

namespace NativeFreeze

open NativeFreeze.Action FileTree

/-- Tools that write what they are asked for and nothing else. A traced script may leave files, at
`strays` only. -/
structure BuildContext.Orderly (c : BuildContext) (strays : Location → Prop) : Prop where
  transpiles : ∀ r w, Changed (fun l => w.files.goal true r.output = some l) (fun _ => False)
    w.files ((c.transpiler.run r).result w).2.files
  compiles : ∀ sources options w,
    Changed (fun l => ∃ source ∈ sources, isHeader source = false ∧
        w.files.goal true (objectPath source options.outputDir) = some l) (fun _ => False)
      w.files ((c.toolchain.compile sources options).result w).2.files
  objects : ∀ sources options w objects,
    ((c.toolchain.compile sources options).result w).1 = .ok objects → ∀ object ∈ objects,
      ∃ source ∈ sources, isHeader source = false ∧ object = objectPath source options.outputDir
  links : ∀ kind objects output options w,
    Changed (fun l => w.files.goal true output = some l) (fun _ => False)
      w.files ((c.toolchain.link kind objects output options).result w).2.files
  traces : ∀ script t, Changed strays (fun _ => False) t
    (c.around.launch (Trace.command c.layout script) c.traceWindow t).2
  transpiler : c.transpiler.KeepsArtifacts
  toolchain : c.toolchain.KeepsArtifacts

/-! ## Orderly tools -/

/-- A tree that has changed in few places stays so if what is written to paths goes to these places. -/
theorem Workspace.steady_changed {t : FileTree} {written removed : Location → Prop}
    {writes : Path → Prop} (inside : ∀ p l, writes p → t.goal true p = some l → written l) :
    Workspace.Steady (fun w => Changed written removed t w.files) writes where
  told _ _ h := h
  made p h := h.trans (.makeAll p)
  written writes wrote h :=
    h.trans (.wrote wrote fun l heads => inside _ l writes (h.goal true _ ▸ heads))

/-- Where no path is written to, a change of few places is left to the commands that are started. -/
theorem Workspace.steady_unwritten (t : FileTree) (written : Location → Prop) :
    Workspace.Steady (fun w => Changed written (fun _ => False) t w.files) fun _ => False :=
  Workspace.steady_changed fun _ _ => False.elim

/-- A command writes to one path, and removes nothing. -/
def Surroundings.WritesOnly (around : Surroundings) (command : Command) (p : Path) : Prop :=
  ∀ t, Changed (fun l => t.goal true p = some l) (fun _ => False) t (around.launch command none t).2

theorem Surroundings.WritesOnly.preserves {around : Surroundings} {command : Command} {p : Path}
    {t : FileTree} {written : Location → Prop} (writes : around.WritesOnly command p)
    (inside : ∀ l, t.goal true p = some l → written l) :
    around.Preserves (fun w => Changed written (fun _ => False) t w.files) command none :=
  fun w h => h.trans ((writes w.files).mono (fun l heads => inside l (h.goal true p ▸ heads))
    fun _ => id)

/-- Cython and a compiler are orderly if each command that runs them writes its output only. -/
theorem BuildContext.orderly_of_commands {c : BuildContext} {strays : Location → Prop}
    {interpreter : Path} {compiler : Text}
    (cython : c.transpiler = Cython.transpiler c.around interpreter)
    (compiles : c.toolchain = Compiler.toolchain c.around compiler)
    (transpile : ∀ r, c.around.WritesOnly (Cython.command interpreter r) r.output)
    (compile : ∀ source options, c.around.WritesOnly
      (Compiler.compileCommand compiler source (objectPath source options.outputDir) options)
      (objectPath source options.outputDir))
    (link : ∀ kind objects output options, c.around.WritesOnly
      (Compiler.linkCommand compiler kind objects output options) output)
    (traces : ∀ script t, Changed strays (fun _ => False) t
      (c.around.launch (Trace.command c.layout script) c.traceWindow t).2) : c.Orderly strays where
  transpiles r w := by
    rw [cython]
    have steady := Workspace.steady_unwritten w.files fun l => w.files.goal true r.output = some l
    exact (Cython.preserves_run steady ((transpile r).preserves fun _ => id) w (.refl _)).1
  compiles sources options w := by
    rw [compiles]
    have steady := Workspace.steady_unwritten w.files fun l => ∃ source ∈ sources,
      isHeader source = false ∧ w.files.goal true (objectPath source options.outputDir) = some l
    refine (Compiler.maintains_compile steady (fun source hs compiled => ?_) w (.refl _)).1
    exact (compile source options).preserves fun l heads => ⟨source, hs, compiled, heads⟩
  objects sources options w objects answer := by
    rw [compiles] at answer
    have steady := Workspace.steady_unwritten w.files fun _ => True
    refine (Compiler.maintains_compile steady (fun source _ _ => ?_) w (.refl _)).2 objects answer
    exact (compile source options).preserves fun _ _ => trivial
  links kind objects output options w := by
    rw [compiles]
    have steady := Workspace.steady_unwritten w.files fun l => w.files.goal true output = some l
    exact (Compiler.preserves_link steady
      ((link kind objects output options).preserves fun _ => id) w (.refl _)).1
  traces := traces
  transpiler := cython ▸ Cython.transpiler_keepsArtifacts _ _
  toolchain := compiles ▸ Compiler.toolchain_keepsArtifacts _ _

/-- The sample tools are orderly where commands leave the files alone. -/
theorem Sample.orderly {c : BuildContext} {strays : Location → Prop}
    (transpiles : c.transpiler.run = transpiler.run) (compiles : c.toolchain = compiler)
    (still : ∀ command limit t, (c.around.launch command limit t).2 = t) : c.Orderly strays where
  transpiles r w := by
    rw [transpiles]
    have steady : Workspace.Steady (fun v => Changed (fun l => w.files.goal true r.output = some l)
        (fun _ => False) w.files v.files) (· = r.output) :=
      Workspace.steady_changed fun _ _ same heads => same ▸ heads
    exact (preserves_write steady rfl none _ w (.refl _)).1
  compiles sources options w := by
    rw [compiles]
    exact .refl _
  objects sources options w objects answer object ho := by
    rw [compiles] at answer
    obtain rfl := Except.ok.inj answer
    obtain ⟨source, hs, rfl⟩ := List.mem_map.mp ho
    obtain ⟨inside, compiled⟩ := List.mem_filter.mp hs
    exact ⟨source, inside, by simpa using compiled, rfl⟩
  links kind objects output options w := by
    rw [compiles]
    exact .refl _
  traces script t := by
    rw [still]
    exact .refl _
  transpiler r := by
    rw [transpiles]
    exact transpiler_keepsArtifacts r
  toolchain := by
    rw [compiles]
    exact ⟨fun _ _ => keeps_pure _, fun _ _ _ _ => keeps_pure _⟩

namespace Footprint

/-- The locations that a build within a footprint may write to, seen from a tree. -/
def Written (f : Footprint) (t : FileTree) (l : Location) : Prop :=
  (∃ p, f.writes p ∧ t.goal true p = some l) ∨ f.strays l

/-- The locations that a build within a footprint may remove, seen from a tree. -/
def Removed (f : Footprint) (clean : Bool) (t : FileTree) (l : Location) : Prop :=
  clean = true ∧ ∃ p, f.records p ∧ t.goal true p = some l

/-- A workspace that came of one with the files `t`, by what may be done within a footprint. -/
structure Within (f : Footprint) (clean : Bool) (t : FileTree) (w : Workspace) : Prop where
  files : Changed (f.Written t) (f.Removed clean t) t w.files
  artifacts : clean = true → ∀ p ∈ w.artifacts, f.records p

/-- Where a build cleans up, none of the files that it records is a link. -/
def Plain (f : Footprint) (clean : Bool) (t : FileTree) : Prop :=
  clean = true → ∀ p, f.records p → t.goal false p = t.goal true p

variable {f : Footprint} {clean : Bool} {t : FileTree} {w : Workspace} {c : BuildContext}

theorem Within.start (artifacts : clean = true → ∀ p ∈ w.artifacts, f.records p) :
    f.Within clean w.files w :=
  ⟨.refl _, artifacts⟩

theorem Within.change {t' : FileTree} {written : Location → Prop} (h : f.Within clean t w)
    (changed : Changed written (fun _ => False) w.files t')
    (inside : ∀ l, written l → f.Written t l) : Changed (f.Written t) (f.Removed clean t) t t' :=
  h.files.trans (changed.mono inside fun _ => False.elim)

theorem Within.written {p : Path} {l : Location} (h : f.Within clean t w) (inside : f.writes p)
    (heads : w.files.goal true p = some l) : f.Written t l :=
  .inl ⟨p, inside, h.files.goal true p ▸ heads⟩

theorem steady_within (orderly : c.Orderly f.strays) : c.Steady (f.Within clean t) f where
  told _ _ h := ⟨h.files, h.artifacts⟩
  made p h := ⟨h.files.trans (.makeAll p), h.artifacts⟩
  written inside wrote h :=
    ⟨h.files.trans (.wrote wrote fun _ => h.written inside), h.artifacts⟩
  requested _ := maintains_modify fun _ h => ⟨h.files, h.artifacts⟩
  recorded p inside := maintains_modify fun _ h =>
    ⟨h.files, fun on => List.forall_mem_append.mpr
      ⟨h.artifacts on, fun _ hq => List.mem_singleton.mp hq ▸ inside⟩⟩
  transpiled r inside w h := by
    refine ⟨⟨h.change (orderly.transpiles r w) fun _ => h.written inside, fun on => ?_⟩,
      fun _ _ => trivial⟩
    rw [orderly.transpiler r w]
    exact h.artifacts on
  compiled sources options temp inside w h := by
    refine ⟨⟨h.change (orderly.compiles sources options w) ?_, fun on => ?_⟩, ?_⟩
    · rintro l ⟨source, hs, compiled, heads⟩
      exact h.written (temp ▸ (inside source hs compiled).1) heads
    · rw [orderly.toolchain.compile sources options w]
      exact h.artifacts on
    · intro objects answer object ho
      obtain ⟨source, hs, compiled, rfl⟩ :=
        orderly.objects sources options w objects answer object ho
      exact temp ▸ (inside source hs compiled).2
  linked kind objects output options inside w h := by
    refine ⟨⟨h.change (orderly.links kind objects output options w) fun _ => h.written inside,
      fun on => ?_⟩, fun _ _ => trivial⟩
    rw [orderly.toolchain.link kind objects output options w]
    exact h.artifacts on
  traced script w h :=
    ⟨h.change (orderly.traces script w.files) fun _ => .inr, h.artifacts⟩

/-! ## Cleaning up -/

theorem preserves_removeArtifact (plain : f.Plain true t) {p : Path} (inside : f.records p) :
    Preserves (f.Within true t) (removeArtifact p) := by
  intro w h
  rcases removeArtifact_cases p w with
    ⟨-, turn⟩ | ⟨file, w₁, kept, ⟨removed, turn⟩ | ⟨e, -, same, turn⟩⟩
  · rw [turn]
    exact ⟨h, fun _ _ => trivial⟩
  · rw [turn]
    refine ⟨⟨h.files.trans (.remove removed file ?_ fun l heads => ⟨rfl, p, inside, ?_⟩), ?_⟩,
      fun _ _ => trivial⟩
    · rw [h.files.goal, h.files.goal, plain rfl p inside]
    · rw [← heads, h.files.goal]
    · rw [kept]
      exact h.artifacts
  · rw [turn]
    refine ⟨⟨?_, ?_⟩, fun _ _ => trivial⟩
    · rw [same]
      exact h.files
    · rw [kept]
      exact h.artifacts

theorem preserves_cleanArtifacts (plain : f.Plain true t) :
    Preserves (f.Within true t) cleanArtifacts := by
  intro w h
  rw [result_cleanArtifacts]
  exact preserves_forM (fun p hp => preserves_removeArtifact plain (h.artifacts rfl p hp)) _
    ⟨h.files, nofun⟩

end Footprint

namespace Node

variable {c : BuildContext} {f : Footprint} {clean : Bool} {t : FileTree}

theorem maintains_processAndClean (orderly : c.Orderly f.strays) (plain : f.Plain clean t) :
    Stage.Preserves (Inside c f) (f.Within clean t) (processAndClean c clean) := by
  refine Stage.maintains_bind (maintains_process (Footprint.steady_within orderly)) fun _ _ => ?_
  cases clean with
  | false => exact Stage.maintains_pure trivial
  | true => exact Stage.maintains_lift (Footprint.preserves_cleanArtifacts plain)

/-- A run over nodes within a footprint does nothing outside. -/
theorem preserves_processAll (orderly : c.Orderly f.strays) (plain : f.Plain clean t) :
    Stage.Preserves (fun nodes => ∀ node ∈ nodes, node.Inside c f) (f.Within clean t)
      (processAll c clean) :=
  Stage.maintains_bind (Stage.maintains_each (maintains_processAndClean orderly plain))
    fun _ _ => Stage.maintains_pure trivial

/-! ## Turns -/

variable {nodes nodes' after : List Node} {node node' : Node} {w w' start finish : Workspace}

/-- In a run over nodes, one of them is built from `start` to `finish`, and `after` comes then. -/
structure Turn (c : BuildContext) (clean : Bool) (nodes : List Node) (w : Workspace) (node : Node)
    (start finish : Workspace) (after : List Node) : Prop where
  reached : ∃ before answers before', nodes = before ++ node :: after ∧
    (Stage.each (processAndClean c clean)).result before w = (.ok answers, before', start)
  built : ∃ node', (process c).result node start = (.ok (), node', finish)

/-- The build of an executable, as the turn of a node. -/
theorem Turn.executable {e : ExecutableNode}
    (turn : Turn c clean nodes w (.executable e) start finish after) :
    ∃ e', (ExecutableNode.process c).result e start = (.ok (), e', finish) := by
  obtain ⟨node', built⟩ := turn.built
  obtain ⟨e', built, -⟩ := Stage.form_eq_ok (r := (ExecutableNode.process c).result e start) built
  exact ⟨e', built⟩

theorem processAndClean_eq_ok (h : (processAndClean c clean).result node w = (.ok (), node', w')) :
    ∃ w₁, (process c).result node w = (.ok (), node', w₁) ∧
      (if clean then cleanArtifacts else pure ()).result w₁ = (.ok (), w') := by
  obtain ⟨_, node₁, w₁, built, cleaned⟩ := Stage.bind_eq_ok h
  cases clean with
  | false =>
    obtain ⟨rfl, rfl⟩ : node₁ = node' ∧ w₁ = w' := by simpa using cleaned
    exact ⟨w₁, built, rfl⟩
  | true =>
    rw [if_pos rfl] at cleaned
    obtain ⟨removed, rfl⟩ := Stage.lift_eq_ok cleaned
    exact ⟨w₁, built, removed⟩

theorem each_of_processAll (ran : (processAll c clean).result nodes w = (.ok (), nodes', w')) :
    ∃ answers, Stage.eachResult (processAndClean c clean) nodes w = (.ok answers, nodes', w') := by
  obtain ⟨answers, nodes₁, w₁, each, last⟩ := Stage.bind_eq_ok ran
  obtain ⟨rfl, rfl⟩ : nodes₁ = nodes' ∧ w₁ = w' := by simpa using last
  exact ⟨answers, each⟩

/-- In a run that succeeds, each node has its turn. -/
theorem exists_turn (ran : (processAll c clean).result nodes w = (.ok (), nodes', w'))
    (h : node ∈ nodes) : ∃ start finish after, Turn c clean nodes w node start finish after := by
  obtain ⟨answers, each⟩ := each_of_processAll ran
  clear ran
  induction nodes generalizing w answers nodes' with
  | nil => exact absurd h List.not_mem_nil
  | cons first others ih =>
    obtain ⟨⟨⟩, first', w₁, rest, rest', built, later, -, -⟩ := Stage.eachResult_cons_eq_ok each
    rcases List.mem_cons.mp h with rfl | h
    · obtain ⟨finish, processed, -⟩ := processAndClean_eq_ok built
      exact ⟨w, finish, others, ⟨[], [], [], rfl, rfl⟩, first', processed⟩
    · obtain ⟨start, finish, after, ⟨before, passed, before', rfl, reached⟩, processed⟩ :=
        ih h rest later
      have from_first : Stage.eachResult (processAndClean c clean) (first :: before) w =
          (.ok (() :: passed), first' :: before', start) := by
        rw [Stage.result_each] at reached
        rw [Stage.eachResult, built]
        dsimp only
        rw [reached]
        rfl
      exact ⟨start, finish, after, ⟨first :: before, _, _, rfl, from_first⟩, processed⟩

/-- After the turn of a node, a run cleans up if asked to, and goes on with the nodes behind. -/
theorem Turn.goes_on (turn : Turn c clean nodes w node start finish after)
    (ran : (processAll c clean).result nodes w = (.ok (), nodes', w')) :
    ∃ w₁ answers after', (if clean then cleanArtifacts else pure ()).result finish = (.ok (), w₁) ∧
      Stage.eachResult (processAndClean c clean) after w₁ = (.ok answers, after', w') := by
  obtain ⟨answers, each⟩ := each_of_processAll ran
  obtain ⟨⟨before, passed, before', rfl, reached⟩, node', built⟩ := turn
  rw [Stage.eachResult_append reached] at each
  rcases others : Stage.eachResult (processAndClean c clean) (node :: after) start with
    ⟨e | rest, others', w₂⟩
  · simp [others, Except.map] at each
  · obtain rfl : w₂ = w' := by
      rw [others] at each
      exact congrArg (·.2.2) each
    obtain ⟨⟨⟩, node₁, w₁, answers, after', processed, later, -, -⟩ :=
      Stage.eachResult_cons_eq_ok others
    obtain ⟨w₃, built', cleaned⟩ := processAndClean_eq_ok processed
    obtain rfl : finish = w₃ := congrArg (·.2.2) (built.symm.trans built')
    exact ⟨w₁, answers, after', cleaned, later⟩

/-- What comes after the turn of a node stays within a footprint that holds all of it. -/
theorem Turn.within (turn : Turn c clean nodes w node start finish after)
    (orderly : c.Orderly f.strays) (plain : f.Plain clean finish.files)
    (inside : ∀ node ∈ after, node.Inside c f)
    (artifacts : clean = true → ∀ p ∈ finish.artifacts, f.records p)
    (ran : (processAll c clean).result nodes w = (.ok (), nodes', w')) :
    f.Within clean finish.files w' := by
  obtain ⟨w₁, answers, after', cleaned, later⟩ := turn.goes_on ran
  have first : f.Within clean finish.files w₁ := by
    have start := Footprint.Within.start artifacts
    cases clean with
    | false => exact (Prod.mk.inj cleaned).2 ▸ start
    | true =>
      have kept := (Footprint.preserves_cleanArtifacts plain finish start).1
      rw [if_pos rfl] at cleaned
      rwa [cleaned] at kept
  have kept := Stage.maintains_each (maintains_processAndClean orderly plain) after w₁ inside first
  rw [Stage.result_each, later] at kept
  exact kept.2.1

end Node

end NativeFreeze
