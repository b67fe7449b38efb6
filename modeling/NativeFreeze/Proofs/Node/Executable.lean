import NativeFreeze.Proofs.FileTree
import NativeFreeze.Proofs.Generated.Symbol
import NativeFreeze.Proofs.Node.Sample
import NativeFreeze.Proofs.Unit.Build

/-!
# What an executable is assembled of

An executable with a script as main unit compiles the sources of its parts behind that of the main
unit, and registers what they define. Both lists are read off the parts as they are before the
build; headers and descriptors are compiled without being registered, so that the rows of the table
and the other compiled files correspond one to one.
-/

namespace NativeFreeze

open Stage

namespace Part

/-- A part as its constructors make it. -/
def Sound (requests : List Request) : Part → Prop
  | unit u => u.Sound requests
  | data _ => True

/-- The request that building a part still has to make. -/
def due : Part → List Request
  | unit u => u.due true
  | data _ => []

/-- The file that is compiled for a part. -/
def source? : Part → Option Path
  | unit (.script u) => some u.generated
  | unit (.native u) => some u.sourcePath
  | unit (.descriptor u) => some u.path
  | unit (.data _) | data _ => none

/-- The module that is registered for a part. -/
def row? : Part → Option RegisteredModule
  | unit (.script u) => some ⟨u.name, moduleSymbol u.name true⟩
  | unit (.native u) => if isHeader u.sourcePath then none else some u.registered
  | unit (.descriptor _) | unit (.data _) | data _ => none

/-- The module that is registered for a part, beside the file that defines it. -/
def linked? : Part → Option (RegisteredModule × Path)
  | unit (.script u) => some (⟨u.name, moduleSymbol u.name true⟩, u.generated)
  | unit (.native u) =>
    if isHeader u.sourcePath then none else some (u.registered, u.sourcePath)
  | unit (.descriptor _) | unit (.data _) | data _ => none

/-- What a successful build makes of a part. -/
inductive Built : Part → Contribution → Part → Prop
  | unit {u v : BuildUnit} {k : Contribution} (built : BuildUnit.Built true u k v) :
      Built (unit u) k (unit v)
  | data (d : DataNode) : Built (data d) {} (data d)

variable {c : BuildContext} {p p' : Part} {k : Contribution}

theorem Sound.mono {requests more : List Request} (h : p.Sound requests)
    (le : requests ⊆ more) : p.Sound more := by
  cases p with
  | unit u => exact BuildUnit.Sound.mono h le
  | data d => trivial

theorem build_onlyTranspiles (keeps : c.transpiler.KeepsRequests) :
    (build c).OnlyTranspiles := by
  intro p w
  cases p with
  | unit u => exact BuildUnit.build_onlyTranspiles keeps u w
  | data d => exact ⟨[], (d.process_keepsRequests c w).trans (by simp)⟩

theorem build_eq_ok (keeps : c.transpiler.KeepsRequests) {w w' : Workspace}
    (sound : p.Sound w.requests) (h : (build c).result p w = (.ok k, p', w')) :
    Built p k p' ∧ p'.Sound w'.requests ∧ w'.requests = w.requests ++ p.due := by
  cases p with
  | unit u =>
    obtain ⟨v, built, rfl⟩ := form_eq_ok (r := (BuildUnit.build c .executable true).result u w) h
    obtain ⟨built, sound, asked⟩ := BuildUnit.build_eq_ok keeps sound built
    exact ⟨.unit built, sound, asked⟩
  | data d =>
    have kept := d.process_keepsRequests c w
    obtain ⟨_, copied, rfl, rfl⟩ := action_eq_ok (r := (d.process c).result w) h
    rw [copied] at kept
    exact ⟨.data d, trivial, kept.trans (List.append_nil _).symm⟩

/-- What a part contributes can be told before it is built. -/
theorem Built.contribution_eq (h : Built p k p') : k = ⟨p.source?, p.row?⟩ := by
  cases h with
  | data d => rfl
  | unit built =>
    cases built with
    | script onward _ flag =>
      rw [source?, row?, flag rfl, ScriptUnit.name, ScriptUnit.name, onward.named,
        onward.generated]
    | native u => rfl
    | descriptor u => rfl
    | data u => rfl

theorem map_fst_linked? (p : Part) : p.linked?.map Prod.fst = p.row? := by
  rcases p with (u | u | u | u) | d
  · rfl
  · cases h : isHeader u.sourcePath <;> simp [linked?, row?, h]
  · rfl
  · rfl
  · rfl

/-- The file of a part defines a module exactly if the part has a row. -/
theorem map_snd_linked? {requests : List Request} (sound : p.Sound requests) :
    p.linked?.map Prod.snd = p.source?.filter isModuleSource := by
  rcases p with (u | u | u | u) | d
  · have file := ScriptUnit.Sound.isModuleSource_generated sound
    simp [linked?, source?, Option.filter, file]
  · obtain ⟨input, home, made⟩ := sound
    have file := NativeUnit.isModuleSource_sourcePath made
    cases h : isHeader u.sourcePath <;> simp [linked?, source?, Option.filter, file, h]
  · have descriptor : (BuildUnit.descriptor u).Sound requests := sound
    have file := DescriptorUnit.isModuleSource_path descriptor
    simp [linked?, source?, Option.filter, file]
  · rfl
  · rfl

end Part

namespace ExecutableNode

variable {c : BuildContext}

/-! ## The main unit -/

theorem buildMainScript_onlyTranspiles (keeps : c.transpiler.KeepsRequests)
    (modules : List RegisteredModule) (standalone : Bool) (runtimeDir : Option Text) :
    (buildMainScript c modules standalone runtimeDir).OnlyTranspiles :=
  onlyTranspiles_bind onlyTranspiles_part fun _ =>
    onlyTranspiles_bind (onlyTranspiles_lift (Action.keepsRequests_note _ _ _)) fun _ =>
      onlyTranspiles_bind (ScriptUnit.transpile_onlyTranspiles keeps _) fun _ =>
        onlyTranspiles_bind (ScriptUnit.freezeExecutable_onlyTranspiles _ _ _) fun _ =>
          onlyTranspiles_bind onlyTranspiles_part fun _ =>
            onlyTranspiles_bind (onlyTranspiles_lift (Action.keepsRequests_record _)) fun _ =>
              onlyTranspiles_pure _

theorem buildMain_onlyTranspiles (keeps : c.transpiler.KeepsRequests)
    (modules : List RegisteredModule) (standalone : Bool) (runtimeDir : Option Text) :
    (buildMain c modules standalone runtimeDir).OnlyTranspiles := by
  intro unit w
  cases unit with
  | script u => exact buildMainScript_onlyTranspiles keeps modules standalone runtimeDir u w
  | native u => exact ⟨[], by simp [buildMain]⟩
  | descriptor u => exact ⟨[], by simp [buildMain]⟩
  | data u => exact ⟨[], by simp [buildMain]⟩

/-- A script that becomes the main unit is on record with its symbol, and gets the bootstrap with
itself in front of the other modules. -/
theorem buildMainScript_eq_ok (keeps : c.transpiler.KeepsRequests)
    {modules : List RegisteredModule} {standalone : Bool} {runtimeDir : Option Text}
    {u v : ScriptUnit} {w w' : Workspace} {source : Path} {script : Option Path}
    (sound : u.Sound w.requests)
    (h : (buildMainScript c modules standalone runtimeDir).result u w =
      (.ok (source, script), v, w')) :
    source = u.generated ∧ script = some u.inputPath ∧
      w'.requests = w.requests ++ u.due u.package ∧
      .transpile (u.request u.package) ∈ w'.requests ∧
      ∃ s, u.Patched (Registration.append
        ⟨⟨u.name, moduleSymbol u.name u.package⟩, modules, standalone, runtimeDir⟩ · u.generated)
        s w'.files := by
  simp only [buildMainScript, result_bind (part : Stage ScriptUnit _), result_part,
    result_bind (liftM (Action.note _ _ _) : Stage ScriptUnit _), result_lift,
    Action.result_note] at h
  obtain ⟨⟨⟩, u₁, w₁, ht, h⟩ := bind_eq_ok h
  obtain ⟨onward, symbol, asked, given⟩ :=
    ScriptUnit.transpile_none_eq_ok keeps (by exact sound) ht
  obtain ⟨⟨⟩, u₂, w₂, hf, h⟩ := bind_eq_ok h
  rcases ScriptUnit.freezeExecutable_cases modules standalone runtimeDir u₁ w₁ with
    ⟨e, hc⟩ | ⟨t, main, hc, -, registered, patched⟩
  · simp [hc] at hf
  · obtain ⟨rfl, rfl⟩ : _ = u₂ ∧ _ = w₂ := by simpa [hc] using hf
    obtain rfl : ⟨u.name, moduleSymbol u.name u.package⟩ = main := by
      simpa [ScriptUnit.registered, symbol, ScriptUnit.name, onward.named] using registered
    simp only [result_bind, result_part, result_lift, Action.result_record, result_pure,
      Prod.mk.injEq, Except.ok.injEq] at h
    obtain ⟨⟨rfl, rfl⟩, rfl, rfl⟩ := h
    refine ⟨onward.generated, ?_, asked, given, w₁.files, ?_⟩
    · rw [ScriptUnit.inputPath, onward.named]
      rfl
    · rw [ScriptUnit.Patched, onward.generated] at patched
      exact patched

/-! ## All units -/

theorem assemble_onlyTranspiles (keeps : c.transpiler.KeepsRequests)
    (built : List Contribution) : (assemble c built).OnlyTranspiles :=
  onlyTranspiles_bind onlyTranspiles_part fun _ =>
    onlyTranspiles_bind (onlyTranspiles_onField (buildMain_onlyTranspiles keeps _ _ _)) fun _ =>
      onlyTranspiles_pure _

theorem buildAll_onlyTranspiles (keeps : c.transpiler.KeepsRequests) :
    (buildAll c).OnlyTranspiles := by
  refine onlyTranspiles_bind onlyTranspiles_part fun e => ?_
  refine onlyTranspiles_bind (onlyTranspiles_lift (Action.keepsRequests_note _ _ _)) fun _ => ?_
  refine onlyTranspiles_bind
    (onlyTranspiles_onField (onlyTranspiles_each (Part.build_onlyTranspiles keeps))) fun built => ?_
  dsimp only
  split
  · exact onlyTranspiles_bind (onlyTranspiles_lift (copyRuntimeLibraries_keepsRequests _ _))
      fun _ => assemble_onlyTranspiles keeps built
  · exact assemble_onlyTranspiles keeps built

/-- What an executable with the main unit `u` registers. -/
def registration (e : ExecutableNode) (u : ScriptUnit) : Registration where
  main := ⟨u.name, moduleSymbol u.name u.package⟩
  modules := e.parts.filterMap Part.row?
  standalone := e.standalone
  runtimeDir := e.runtimeDir

/-- What an executable `e` with the main unit `u` has come to when its units are built: the files to
compile, and the workspaces from before and after. -/
structure Assembled (e : ExecutableNode) (u : ScriptUnit) (before : Workspace)
    (sources : List Path) (after : Workspace) : Prop where
  /-- The main unit's file comes first, those of the parts follow in their order. -/
  sources_eq : sources = u.generated :: e.parts.filterMap Part.source?
  /-- The main unit's file ends in the bootstrap of the registration. -/
  written : ∃ code : Text, after.files.read u.generated =
    .ok (Text.bytes (code ++ "\n\n\n".toList ++ (e.registration u).render))
  /-- The transpiler was given the registered symbol of the main unit. -/
  main_given : .transpile ⟨u.inputPath, u.generated, moduleSymbol u.name u.package⟩ ∈
    after.requests
  /-- The transpiler was given the registered symbol of each script. -/
  part_given : ∀ v, .unit (.script v) ∈ e.parts →
    .transpile ⟨v.inputPath, v.generated, moduleSymbol v.name true⟩ ∈ after.requests
  /-- No tool was asked for anything else than what was due. -/
  requests_eq : after.requests = before.requests ++ e.parts.flatMap Part.due ++ u.due u.package
  /-- Registered modules and compiled module sources correspond one to one, in order. -/
  linked : ∃ linked : List (RegisteredModule × Path),
    linked.map Prod.fst = (e.registration u).registered ∧
      linked.map Prod.snd = sources.filter isModuleSource

theorem linked_eq (e : ExecutableNode) {u : ScriptUnit} {requests : List Request}
    (sound : u.Sound requests) (parts : ∀ p ∈ e.parts, p.Sound requests) :
    ∃ linked : List (RegisteredModule × Path),
      linked.map Prod.fst = (e.registration u).registered ∧
        linked.map Prod.snd =
          (u.generated :: e.parts.filterMap Part.source?).filter isModuleSource := by
  refine ⟨((e.registration u).main, u.generated) :: e.parts.filterMap Part.linked?, ?_, ?_⟩
  · rw [List.map_cons, List.map_filterMap]
    simp only [Part.map_fst_linked?]
    rfl
  · rw [List.map_cons, List.map_filterMap, List.filter_cons, sound.isModuleSource_generated,
      if_pos rfl, List.filter_filterMap]
    congr 1
    exact List.filterMap_congr fun p hp => Part.map_snd_linked? (parts p hp)

/-- The parts are built first, with what each contributes known before. -/
theorem eachPart_eq_ok (keeps : c.transpiler.KeepsRequests) {parts parts' : List Part}
    {w w' : Workspace} {built : List Contribution} (sound : ∀ p ∈ parts, p.Sound w.requests)
    (h : eachResult (Part.build c) parts w = (.ok built, parts', w')) :
    built = parts.map (fun p => ⟨p.source?, p.row?⟩) ∧
      w'.requests = w.requests ++ parts.flatMap Part.due ∧
      ∀ v, .unit (.script v) ∈ parts →
        .transpile ⟨v.inputPath, v.generated, moduleSymbol v.name true⟩ ∈ w'.requests := by
  obtain ⟨made, rfl, rfl, each, sound', asked⟩ := eachResult_eq_ok
    (fun p requests => Part.Sound requests p) (fun _ _ _ => Part.Sound.mono)
    (fun _ _ _ _ _ => Part.build_eq_ok keeps) sound h
  refine ⟨?_, asked, ?_⟩
  · clear sound sound' h asked
    induction each with
    | nil => rfl
    | cons built _ ih => rw [List.map_cons, List.map_cons, ih, built.contribution_eq]
  · intro v hv
    obtain ⟨m, hm, built⟩ : ∃ m ∈ made, Part.Built (.unit (.script v)) m.1 m.2 := by
      clear sound sound' h asked
      induction each with
      | nil => exact absurd hv List.not_mem_nil
      | cons built _ ih =>
        rcases List.mem_cons.mp hv with rfl | hv
        · exact ⟨_, List.mem_cons_self, built⟩
        · obtain ⟨m, hm, built⟩ := ih hv
          exact ⟨m, List.mem_cons_of_mem _ hm, built⟩
    obtain ⟨k, p'⟩ := m
    have good := sound' p' (List.mem_map.mpr ⟨_, hm, rfl⟩)
    cases built with
    | unit built =>
      cases built with
      | @script _ v' onward transpiled flag =>
        have sound : v'.Sound w'.requests := good
        have given := sound.request_mem transpiled
        rw [flag rfl, ScriptUnit.request, ScriptUnit.inputPath, ScriptUnit.name, onward.named,
          onward.generated] at given
        exact given

theorem assemble_eq_ok (keeps : c.transpiler.KeepsRequests) {built : List Contribution}
    {e e' : ExecutableNode} {u : ScriptUnit} {w w' : Workspace} {sources : List Path}
    {script : Option Path} (main : e.main = .script u) (sound : u.Sound w.requests)
    (h : (assemble c built).result e w = (.ok (sources, script), e', w')) :
    sources = u.generated :: built.filterMap Contribution.source ∧ script = some u.inputPath ∧
      w'.requests = w.requests ++ u.due u.package ∧
      .transpile (u.request u.package) ∈ w'.requests ∧
      ∃ s, u.Patched (Registration.append
        ⟨⟨u.name, moduleSymbol u.name u.package⟩, built.filterMap Contribution.registered,
          e.standalone, e.runtimeDir⟩ · u.generated) s w'.files := by
  simp only [assemble, result_bind (part : Stage ExecutableNode _), result_part] at h
  obtain ⟨⟨source, script₁⟩, e₁, w₁, hm, h⟩ := bind_eq_ok h
  obtain ⟨⟨rfl, rfl⟩, rfl, rfl⟩ :
      (source :: built.filterMap Contribution.source = sources ∧ script₁ = script) ∧
        e₁ = e' ∧ w₁ = w' := by
    simpa using h
  obtain ⟨unit, hm, -⟩ := onField_eq_ok hm
  rw [main] at hm
  obtain ⟨v, hm, -⟩ := form_eq_ok
    (r := (buildMainScript c (built.filterMap Contribution.registered) e.standalone
      e.runtimeDir).result u w) hm
  obtain ⟨rfl, rest⟩ := buildMainScript_eq_ok keeps sound hm
  exact ⟨rfl, rest⟩

/-- An executable whose units are built is assembled. -/
theorem buildAll_eq_ok (keeps : c.transpiler.KeepsRequests) {e e' : ExecutableNode}
    {u : ScriptUnit} {w w' : Workspace} {sources : List Path} {script : Option Path}
    (main : e.main = .script u) (sound : u.Sound w.requests)
    (parts : ∀ p ∈ e.parts, p.Sound w.requests)
    (h : (buildAll c).result e w = (.ok (sources, script), e', w')) :
    script = some u.inputPath ∧ Assembled e u w sources w' := by
  simp only [buildAll, result_bind (part : Stage ExecutableNode _), result_part,
    result_bind (liftM (Action.note _ _ _) : Stage ExecutableNode _), result_lift,
    Action.result_note] at h
  obtain ⟨built, e₁, w₁, hp, h⟩ := bind_eq_ok h
  rw [result_onField, result_each] at hp
  rcases hb : eachResult (Part.build c) e.parts _ with ⟨answer, parts', w₁'⟩
  rw [hb] at hp
  obtain ⟨rfl, rfl, rfl⟩ : answer = .ok built ∧ { e with parts := parts' } = e₁ ∧ w₁' = w₁ := by
    simpa using hp
  obtain ⟨rfl, asked, given⟩ := eachPart_eq_ok keeps (by exact parts) hb
  -- Copying the runtime libraries, if it happens, asks no tool.
  obtain ⟨w₂, kept, h⟩ : ∃ w₂ : Workspace, w₂.requests = w₁'.requests ∧
      (assemble c (e.parts.map fun p => ⟨p.source?, p.row?⟩)).result { e with parts := parts' }
        w₂ = (.ok (sources, script), e', w') := by
    split at h
    · obtain ⟨_, e₂, w₂, hc, h⟩ := bind_eq_ok h
      have kept := copyRuntimeLibraries_keepsRequests c.layout c.dirs.output w₁'
      rw [result_lift] at hc
      obtain ⟨-, rfl, rfl⟩ : _ ∧ _ = e₂ ∧ _ = w₂ := by simpa using hc
      exact ⟨_, kept, h⟩
    · exact ⟨w₁', rfl, h⟩
  have sound₂ : u.Sound w₂.requests := by
    rw [kept, asked]
    exact sound.mono (List.subset_append_left _ _)
  have main' : ({ e with parts := parts' } : ExecutableNode).main = .script u := main
  obtain ⟨hs, script_eq, asked', main_given, s, patched⟩ := assemble_eq_ok keeps main' sound₂ h
  obtain ⟨code, out, -, appended, write⟩ := patched
  have sources_eq : sources = u.generated :: e.parts.filterMap Part.source? := by
    rw [hs, List.filterMap_map]
    rfl
  refine ⟨script_eq, {
    sources_eq := sources_eq
    written := ?_
    main_given := main_given
    part_given := ?_
    requests_eq := ?_
    linked := sources_eq ▸ linked_eq e sound parts }⟩
  · refine ⟨code, ?_⟩
    simp only [List.filterMap_map, Registration.append] at appended
    split at appended
    · simp at appended
    · obtain rfl := Except.ok.inj appended
      exact FileTree.read_write write
  · intro v hv
    rw [asked', kept]
    exact List.mem_append_left _ (given v hv)
  · rw [asked', kept, asked]

/-! ## The toolchain -/

/-- Linking an executable asks the compiler for its sources first. -/
theorem link_requests (toolchain : c.toolchain.KeepsRequests) (e : ExecutableNode)
    (sources : List Path) (script : Option Path) (w : Workspace) :
    ∃ linked, ((link c sources script).result e w).2.2.requests =
        w.requests ++ .compile sources (c.compileOptions e.includeDirs) :: linked ∧
      (linked = [] ∨ ∃ objects, linked = [.link .executable objects
        (e.outputPath c.dirs.output) (c.linkOptions e.libraryDirs [])]) := by
  obtain ⟨linked, asked, hl⟩ := BuildContext.compileAndLink_requests toolchain sources
    (c.compileOptions e.includeDirs) .executable (e.outputPath c.dirs.output)
    (c.linkOptions e.libraryDirs []) w
  refine ⟨linked, ?_, hl⟩
  rw [← asked, link, result_bind, result_part]
  dsimp only
  rw [result_bind, result_lift]
  rcases (c.compileAndLink sources (c.compileOptions e.includeDirs) .executable
    (e.outputPath c.dirs.output) (c.linkOptions e.libraryDirs [])).result w with ⟨_ | ⟨⟩, w₁⟩
  · rfl
  · dsimp only
    split
    · rw [result_lift]
      exact bundle_keepsRequests c script e w₁
    · rfl

/-- An executable that reaches the compiler has been assembled, and what is compiled is what it was
assembled of. -/
theorem compile_mem_requests (transpiler : c.transpiler.KeepsRequests)
    (toolchain : c.toolchain.KeepsRequests) {e : ExecutableNode} {w : Workspace}
    {sources : List Path} {options : CompileOptions}
    (compile : .compile sources options ∈
      ((process c).result e w).2.2.requests.drop w.requests.length) :
    ∃ script e₁ w₁, (buildAll c).result e w = (.ok (sources, script), e₁, w₁) ∧
      (process c).result e w = (link c sources script).result e₁ w₁ := by
  obtain ⟨made, asked⟩ := buildAll_onlyTranspiles transpiler e w
  have whole : (process c).result e w = _ := result_bind (buildAll c) _ e w
  rcases hb : (buildAll c).result e w with ⟨failure | ⟨sources₁, script⟩, e₁, w₁⟩
  · rw [hb] at asked whole
    rw [whole, asked, List.drop_left] at compile
    simp at compile
  · rw [hb] at asked whole
    dsimp only at asked whole
    obtain ⟨linked, hl, hk⟩ := link_requests toolchain e₁ sources₁ script w₁
    rw [whole, hl, asked, List.append_assoc, List.drop_left] at compile
    obtain rfl : sources = sources₁ := by
      rcases hk with rfl | ⟨objects, rfl⟩
      · simp at compile
        exact compile.1
      · simp at compile
        exact compile.1
    exact ⟨script, e₁, w₁, rfl, whole⟩

/-- An executable of a script, a module of a package, a hand-written extension with its header, and a
descriptor. -/
def mixed : ExecutableNode where
  name := "main".toList
  main := .script (Sample.script "main.py".toList)
  parts := [
    .unit (.script (Sample.script "a/b.py".toList)),
    .unit (.native (Sample.native "x.c".toList)),
    .unit (.native (Sample.native "x.h".toList)),
    .unit (.descriptor ⟨⟨"x.rc".toList⟩, none⟩)]

end ExecutableNode

end NativeFreeze
