import NativeFreeze.Node.Basic
import NativeFreeze.Proofs.Generated.Symbol
import NativeFreeze.Proofs.Node.Sample
import NativeFreeze.Proofs.Unit.Build

/-!
# The exported init function

A library promises one init function, computed from the name of the node; its first script defines
one, computed from the name of the unit. The two are the same for a package only if its name has no
dot, and for a plain module unless its path ends in an initialiser that does not stand right behind
the last piece of the name.
-/

namespace NativeFreeze

namespace ModuleNode

variable {name : Text}

theorem exportedSegment_of_getLast? {last : Text}
    (h : (Text.split '.' name).getLast? = some last) (hl : last ≠ initSegment) :
    exportedSegment name = last := by
  simp [exportedSegment, h, hl]

theorem exportedSegment_of_append {front : List Text}
    (h : Text.split '.' name = front ++ [initSegment]) :
    exportedSegment name = front.getLast?.getD initSegment := by
  simp [exportedSegment, h]

theorem exportedSegment_mem (name : Text) : exportedSegment name ∈ Text.split '.' name := by
  by_cases hl : (Text.split '.' name).getLast? = some initSegment
  · obtain ⟨front, hf⟩ := List.getLast?_eq_some_iff.mp hl
    rw [exportedSegment_of_append hf, hf]
    cases hg : front.getLast? with
    | none => exact List.mem_append_right _ (List.mem_singleton.mpr rfl)
    | some t => exact List.mem_append_left _ (List.mem_of_getLast? hg)
  · have last := getLast?_split name
    rw [exportedSegment_of_getLast? last (fun e => hl (e ▸ last))]
    exact moduleSymbol_mem_split name

/-- The exported segment of a name is its symbol in a package only if the name has no dot. -/
theorem exportedSegment_eq_moduleSymbol_true_iff :
    exportedSegment name = moduleSymbol name true ↔ '.' ∉ name := by
  constructor
  · intro h dot
    have shorter := Text.length_lt_of_mem_split dot (exportedSegment_mem name)
    rw [h, length_moduleSymbol_true] at shorter
    exact Nat.lt_irrefl _ shorter
  · intro dot
    have piece := exportedSegment_mem name
    rw [Text.split_eq_singleton dot, List.mem_singleton] at piece
    rw [piece, moduleSymbol_eq_self dot]

end ModuleNode

open ModuleNode

namespace NamedSource

/-- A full name that ends in an initialiser has the last piece of the name right before it. -/
def EndsInLeaf (s : NamedSource) : Prop :=
  ∀ front, Text.split '.' s.fullName = front ++ [initSegment] →
    front.getLast? = some (moduleSymbol s.name false)

/-- A full name that ends in two initialisers. -/
def EndsInInits (s : NamedSource) : Prop :=
  ∃ front, Text.split '.' s.fullName = front ++ [initSegment, initSegment]

theorem exportedSegment_eq_moduleSymbol_false_iff (s : Source) :
    exportedSegment (of s).fullName = moduleSymbol (of s).name false ↔ (of s).EndsInLeaf := by
  constructor
  · intro h front hf
    rw [exportedSegment_of_append hf] at h
    cases hg : front.getLast? with
    | some t => rw [← h, hg, Option.getD_some]
    | none =>
      rw [List.getLast?_eq_none_iff.mp hg] at hf h
      have empty : (of s).name = [] := moduleName_eq_nil hf
      rw [empty] at h
      exact absurd h (by decide)
  · intro h
    by_cases hl : (Text.split '.' (of s).fullName).getLast? = some initSegment
    · obtain ⟨front, hf⟩ := List.getLast?_eq_some_iff.mp hl
      rw [exportedSegment_of_append hf, h front hf, Option.getD_some]
    · have last : (Text.split '.' (of s).fullName).getLast? = _ :=
        (getLast?_split_moduleName hl).symm.trans (getLast?_split _)
      rw [exportedSegment_of_getLast? last (fun e => hl (e ▸ last))]
      rfl

theorem EndsInInits.exportedSegment_eq {s : NamedSource} (h : s.EndsInInits) :
    exportedSegment s.fullName = initSegment := by
  obtain ⟨front, hf⟩ := h
  have hf : Text.split '.' s.fullName = (front ++ [initSegment]) ++ [initSegment] := by
    rw [hf, List.append_assoc]
    rfl
  rw [exportedSegment_of_append hf, List.getLast?_concat, Option.getD_some]

/-- What is exported of a name with a dot is a piece of the name, unless two initialisers end it. -/
theorem endsInInits_of_exportedSegment {s : Source} (dot : '.' ∈ (of s).name)
    (h : exportedSegment (of s).fullName ∉ Text.split '.' (of s).name) : (of s).EndsInInits := by
  have init := (mem_split_moduleName (exportedSegment_mem (of s).fullName)).resolve_right h
  by_cases hl : (Text.split '.' (of s).fullName).getLast? = some initSegment
  · obtain ⟨front, hf⟩ := List.getLast?_eq_some_iff.mp hl
    rw [exportedSegment_of_append hf] at init
    cases hg : front.getLast? with
    | none =>
      rw [List.getLast?_eq_none_iff.mp hg] at hf
      have empty : (of s).name = [] := moduleName_eq_nil hf
      rw [empty] at dot
      exact absurd dot List.not_mem_nil
    | some t =>
      rw [hg, Option.getD_some] at init
      obtain ⟨front, rfl⟩ := List.getLast?_eq_some_iff.mp hg
      exact ⟨front, by rw [hf, init, List.append_assoc]; rfl⟩
  · have last := getLast?_split (of s).fullName
    rw [exportedSegment_of_getLast? last (fun e => hl (e ▸ last))] at init
    exact absurd (init ▸ last) hl

theorem exportedSegment_eq_moduleSymbol_true_iff (s : Source) :
    exportedSegment (of s).fullName = moduleSymbol (of s).name true ↔
      '.' ∉ (of s).name ∧ (of s).EndsInLeaf ∨
        (of s).EndsInInits ∧ moduleSymbol (of s).name true = initSegment := by
  by_cases dot : '.' ∈ (of s).name
  · constructor
    · intro h
      have inits : (of s).EndsInInits := by
        refine endsInInits_of_exportedSegment dot fun piece => ?_
        have shorter := Text.length_lt_of_mem_split dot piece
        rw [h, length_moduleSymbol_true] at shorter
        exact Nat.lt_irrefl _ shorter
      exact .inr ⟨inits, h ▸ inits.exportedSegment_eq⟩
    · rintro (⟨free, -⟩ | ⟨inits, symbol⟩)
      · exact absurd dot free
      · rw [inits.exportedSegment_eq, symbol]
  · have plain := exportedSegment_eq_moduleSymbol_false_iff s
    rw [moduleSymbol_eq_self dot] at plain
    rw [moduleSymbol_eq_self dot]
    constructor
    · intro h
      exact .inl ⟨dot, plain.mp h⟩
    · rintro (⟨-, leaf⟩ | ⟨inits, symbol⟩)
      · exact plain.mpr leaf
      · rw [inits.exportedSegment_eq, symbol]

end NamedSource

/-- When the library of a first unit `u` exports the init function that `u` defines: always under
this condition, and only then. -/
def ScriptUnit.Exports (u : ScriptUnit) (library : Bool) : Prop :=
  match library, u.package with
  | true, _ => '.' ∉ u.name
  | false, false => u.named.EndsInLeaf
  | false, true =>
    '.' ∉ u.name ∧ u.named.EndsInLeaf ∨
      u.named.EndsInInits ∧ moduleSymbol u.name true = initSegment

theorem ScriptUnit.exportedSegment_eq_iff {u : ScriptUnit} {s : Source} (named : u.named = .of s)
    {library : Bool} (flag : library = true → u.package = true) :
    exportedSegment (if library then u.name else u.named.fullName) =
        moduleSymbol u.name u.package ↔ u.Exports library := by
  cases library with
  | true =>
    rw [flag rfl]
    exact ModuleNode.exportedSegment_eq_moduleSymbol_true_iff
  | false =>
    cases hp : u.package with
    | false =>
      simp only [Exports, hp, name, named, Bool.false_eq_true, if_false]
      exact NamedSource.exportedSegment_eq_moduleSymbol_false_iff s
    | true =>
      simp only [Exports, hp, name, named, Bool.false_eq_true, if_false]
      exact NamedSource.exportedSegment_eq_moduleSymbol_true_iff s

/-! ## Building a library -/

/-- Whether a unit has a qualified name. -/
def BuildUnit.isNamed (u : BuildUnit) : Bool :=
  u.named?.isSome

theorem BuildUnit.Built.isNamed_eq {package : Bool} {u v : BuildUnit} {k : Contribution}
    (h : Built package u k v) : v.isNamed = u.isNamed := by
  cases h <;> rfl

theorem BuildUnit.findSome?_named? {units : List BuildUnit} {u : BuildUnit}
    (h : units.find? isNamed = some u) : units.findSome? named? = u.named? := by
  induction units with
  | nil => simp at h
  | cons first units ih =>
    rw [List.find?_cons] at h
    rw [List.findSome?_cons]
    cases hn : first.named? with
    | some named =>
      obtain rfl : first = u := by simpa [isNamed, hn] using h
      exact hn.symm
    | none => exact ih (by simpa [isNamed, hn] using h)

/-- The first named unit of a library stays the first, and a script there is transpiled. -/
theorem BuildUnit.find?_isNamed_built {package : Bool} {units : List BuildUnit}
    {made : List (Contribution × BuildUnit)} {u : ScriptUnit}
    (h : List.Forall₂ (fun u m => Built package u m.1 m.2) units made)
    (first : units.find? isNamed = some (.script u)) :
    ∃ v, (made.map Prod.snd).find? isNamed = some (.script v) ∧ u.Onward v ∧
      v.state.isTranspiled = true ∧ (package = true → v.package = true) := by
  induction h with
  | nil => simp at first
  | @cons u₁ m units made built _ ih =>
    rw [List.map_cons, List.find?_cons, built.isNamed_eq]
    rw [List.find?_cons] at first
    cases hu : u₁.isNamed with
    | true =>
      simp only [hu, Option.some.injEq] at first ⊢
      obtain ⟨k, v₁⟩ := m
      subst first
      cases built with
      | script onward transpiled flag => exact ⟨_, rfl, onward, transpiled, flag⟩
    | false =>
      simp only [hu] at first ⊢
      exact ih first

namespace ModuleNode

variable {c : BuildContext}

theorem buildUnits_onlyTranspiles (keeps : c.transpiler.KeepsRequests) (package : Bool) :
    (buildUnits c package).OnlyTranspiles :=
  Stage.onlyTranspiles_bind (Stage.onlyTranspiles_each (BuildUnit.build_onlyTranspiles keeps))
    fun _ => Stage.onlyTranspiles_pure _

theorem buildUnits_eq_ok (keeps : c.transpiler.KeepsRequests) {package : Bool}
    {units units' : List BuildUnit} {w w' : Workspace} {sources : List Path}
    (sound : ∀ u ∈ units, u.Sound w.requests)
    (h : (buildUnits c package).result units w = (.ok sources, units', w')) :
    ∃ made : List (Contribution × BuildUnit), units' = made.map Prod.snd ∧
      List.Forall₂ (fun u m => BuildUnit.Built package u m.1 m.2) units made ∧
      ∀ u ∈ units', u.Sound w'.requests := by
  obtain ⟨ks, units₁, w₁, hb, hp⟩ := Stage.bind_eq_ok h
  obtain ⟨rfl, rfl⟩ : units₁ = units' ∧ w₁ = w' := by
    simpa using congrArg Prod.snd hp
  obtain ⟨made, -, hm, built, sound, -⟩ := Stage.eachResult_eq_ok
    (fun u requests => BuildUnit.Sound requests u) (fun _ _ _ => BuildUnit.Sound.mono)
    (fun _ _ _ _ _ => BuildUnit.build_eq_ok keeps) sound hb
  exact ⟨made, hm, built, sound⟩

/-- The units are built first; if that succeeds, their sources are compiled and linked. -/
theorem process_result (c : BuildContext) (m : ModuleNode) (w : Workspace) :
    ∃ start answer units w₁, start.requests = w.requests ∧
      (buildUnits c m.package).result m.units start = (answer, units, w₁) ∧
      ((process c).result m w).2 = ({ m with units := units },
        match answer with
        | .ok sources => ((c.compileAndLink sources (c.compileOptions m.includeDirs) .shared
            (m.outputPath c.dirs.output c.layout.extSuffix)
            (c.linkOptions m.libraryDirs [m.exportSymbol])).result w₁).2
        | .error _ => w₁) := by
  obtain ⟨start, hs⟩ : ∃ start : Workspace, start =
    { w with log := w.log ++ [⟨.info, .module, "Building module ".toList ++ m.name⟩] } := ⟨_, rfl⟩
  rcases hb : (buildUnits c m.package).result m.units start with ⟨answer, units, w₁⟩
  refine ⟨start, answer, units, w₁, by rw [hs], hb, ?_⟩
  simp only [process, Stage.result_bind, Stage.result_part, Stage.result_lift, Action.result_note,
    Stage.result_onField, ← hs, hb]
  cases answer <;> rfl

/-- A library requests one link at most, and only after its units are built. -/
theorem link_mem_requests {c : BuildContext} (transpiler : c.transpiler.KeepsRequests)
    (toolchain : c.toolchain.KeepsRequests) {m : ModuleNode} {w : Workspace} {kind : LinkKind}
    {objects : List Path} {output : Path} {options : LinkOptions}
    (link : .link kind objects output options ∈
      ((process c).result m w).2.2.requests.drop w.requests.length) :
    ∃ start sources units w₁, start.requests = w.requests ∧
      (buildUnits c m.package).result m.units start = (.ok sources, units, w₁) ∧
      ((process c).result m w).2.1 = { m with units := units } ∧
      w₁.requests ⊆ ((process c).result m w).2.2.requests ∧ kind = .shared ∧
      options = c.linkOptions m.libraryDirs [m.exportSymbol] := by
  obtain ⟨start, answer, units, w₁, hs, hb, hp⟩ := process_result c m w
  obtain ⟨asked, ha⟩ := buildUnits_onlyTranspiles transpiler m.package m.units start
  rw [hb, hs] at ha
  dsimp only at ha
  rw [hp] at link ⊢
  cases answer with
  | error e =>
    dsimp only at link
    rw [ha, List.drop_left] at link
    simp at link
  | ok sources =>
    obtain ⟨linked, hl, hk⟩ := BuildContext.compileAndLink_requests toolchain sources
      (c.compileOptions m.includeDirs) .shared (m.outputPath c.dirs.output c.layout.extSuffix)
      (c.linkOptions m.libraryDirs [m.exportSymbol]) w₁
    dsimp only at link ⊢
    rw [hl, ha, List.append_assoc, List.drop_left] at link
    refine ⟨start, sources, units, w₁, hs, hb, rfl, ?_, ?_⟩
    · rw [hl]
      exact List.subset_append_left _ _
    · rcases hk with rfl | ⟨objects, rfl⟩
      · simp at link
      · simp only [List.mem_append, List.mem_map, reduceCtorEq, and_false, exists_false,
          List.mem_cons, Request.link.injEq, List.not_mem_nil, or_false, false_or] at link
        exact ⟨link.1, link.2.2.2⟩

end ModuleNode

namespace Node

/-- The library that a node builds. -/
def library? : Node → Option ModuleNode
  | module m => some m
  | package p => some p.module
  | executable _ | data _ => none

/-- A module and a package are both built as the library that they are. -/
theorem process_library {c : BuildContext} {node : Node} {m : ModuleNode} {w : Workspace}
    (h : node.library? = some m) :
    ((process c).result node w).2.1.library? = some ((ModuleNode.process c).result m w).2.1 ∧
      ((process c).result node w).2.2 = ((ModuleNode.process c).result m w).2.2 := by
  cases node with
  | module m =>
    obtain rfl : m = _ := Option.some.inj h
    exact ⟨rfl, rfl⟩
  | package p =>
    obtain rfl : p.module = _ := Option.some.inj h
    exact ⟨rfl, rfl⟩
  | executable e => simp [library?] at h
  | data d => simp [library?] at h

/-- The symbol that a library is linked to export, against the name that its first unit, a script,
was transpiled under. -/
theorem exportSymbol_eq_initSymbol_iff {c : BuildContext}
    (transpiler : c.transpiler.KeepsRequests) (toolchain : c.toolchain.KeepsRequests)
    {node : Node} {m : ModuleNode} {w : Workspace} {u : ScriptUnit} {kind : LinkKind}
    {objects : List Path} {output : Path} {options : LinkOptions}
    (library : node.library? = some m)
    (made : ModuleNode.ofUnits m.units m.package = .ok ⟨m.name, m.units, m.package, [], []⟩)
    (first : m.units.find? BuildUnit.isNamed = some (.script u))
    (sound : ∀ u ∈ m.units, u.Sound w.requests)
    (link : .link kind objects output options ∈
      ((process c).result node w).2.2.requests.drop w.requests.length) :
    ∃ m' v symbol, ((process c).result node w).2.1.library? = some m' ∧
      m'.units.find? BuildUnit.isNamed = some (.script v) ∧ v.symbol = some symbol ∧
      .transpile ⟨u.inputPath, u.generated, symbol⟩ ∈
        ((process c).result node w).2.2.requests ∧
      kind = .shared ∧ options.exportSymbols = [m.exportSymbol] ∧
      (m.exportSymbol = initSymbol symbol ↔ v.Exports m.package) := by
  obtain ⟨same, requests⟩ := process_library (c := c) (w := w) library
  rw [requests] at link
  obtain ⟨start, sources, units, w₁, hs, hb, units_eq, grown, shared, options_eq⟩ :=
    ModuleNode.link_mem_requests transpiler toolchain link
  rw [← hs] at sound
  obtain ⟨made_units, rfl, built, sound'⟩ := ModuleNode.buildUnits_eq_ok transpiler sound hb
  obtain ⟨v, first', onward, transpiled, flag⟩ := BuildUnit.find?_isNamed_built built first
  have sound : v.Sound w₁.requests := sound' _ (List.mem_of_find?_eq_some first')
  have symbol : v.symbol = some (moduleSymbol v.name v.package) := by
    rw [sound.coherent.symbol, transpiled]
    rfl
  have given : .transpile (v.request v.package) ∈ w₁.requests := sound.request_mem transpiled
  obtain ⟨input, home, unit, hu, since⟩ := sound.made
  have named : v.named = .of (.resolve input home) := by
    rw [since.named, (ScriptUnit.ofPath_eq_ok hu).2, ScriptUnit.ofSource]
  have name : m.name = if m.package then v.name else v.named.fullName := by
    rw [ModuleNode.ofUnits, BuildUnit.findSome?_named? first, ScriptUnit.name, onward.named] at *
    simpa using (congrArg ModuleNode.name (Except.ok.inj made)).symm
  refine ⟨_, v, _, same.trans (congrArg some units_eq), first', symbol, ?_, shared, ?_, ?_⟩
  · rw [requests]
    refine grown ?_
    rw [ScriptUnit.inputPath, ← onward.named, ← onward.generated]
    exact given
  · rw [options_eq]
    rfl
  · rw [ModuleNode.exportSymbol, initSymbol_inj, name]
    exact ScriptUnit.exportedSegment_eq_iff named flag

/-- A package inside a package, made of its initialiser. -/
def nested : ModuleNode where
  name := "a.b".toList
  units := [.script (Sample.script "a/b/__init__.py".toList)]
  package := true

/-- How the sample tools link `nested`. -/
def nestedLink : LinkOptions where
  libraryDirs := [⟨"/py/lib".toList⟩]
  libraries := ["python3.11".toList]
  exportSymbols := ["PyInit_b".toList]

theorem nested_sound : ∀ u ∈ nested.units, u.Sound Sample.start.requests := by
  intro u hu
  obtain rfl := List.mem_singleton.mp hu
  exact BuildUnit.sound_ofPath? (p := ⟨"a/b/__init__.py".toList⟩) rfl Sample.start.requests

theorem exportSymbol_eq_initSymbol_iff_nested :
    ∃ m' v symbol,
      ((Node.process Sample.context).result (.package ⟨nested⟩) Sample.start).2.1.library? =
        some m' ∧
      m'.units.find? BuildUnit.isNamed = some (.script v) ∧ v.symbol = some symbol ∧
      .transpile ⟨⟨"a/b/__init__.py".toList⟩, ⟨"a/b/__init__.cpp".toList⟩, symbol⟩ ∈
        ((Node.process Sample.context).result (.package ⟨nested⟩) Sample.start).2.2.requests ∧
      LinkKind.shared = .shared ∧ nestedLink.exportSymbols = [nested.exportSymbol] ∧
      (nested.exportSymbol = initSymbol symbol ↔ v.Exports nested.package) := by
  have link : .link .shared [⟨"a/b/__init__.cpp".toList⟩] ⟨"build/lib/a/b.so".toList⟩ nestedLink ∈
      ((Node.process Sample.context).result (.package ⟨nested⟩) Sample.start).2.2.requests.drop
        Sample.start.requests.length := by
    decide +kernel
  exact exportSymbol_eq_initSymbol_iff Sample.transpiler_keepsRequests
    Sample.toolchain_keepsRequests rfl rfl rfl nested_sound link

/-- The library of `nested` exports another init function than its initialiser defines. -/
theorem exportSymbol_ne_initSymbol_nested :
    .transpile ⟨⟨"a/b/__init__.py".toList⟩, ⟨"a/b/__init__.cpp".toList⟩, "a_b".toList⟩ ∈
        ((Node.process Sample.context).result (.package ⟨nested⟩) Sample.start).2.2.requests ∧
      .link .shared [⟨"a/b/__init__.cpp".toList⟩] ⟨"build/lib/a/b.so".toList⟩ nestedLink ∈
        ((Node.process Sample.context).result (.package ⟨nested⟩) Sample.start).2.2.requests ∧
      nestedLink.exportSymbols ≠ [initSymbol "a_b".toList] := by
  decide +kernel

end Node

end NativeFreeze
