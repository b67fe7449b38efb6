import NativeFreeze.Proofs.Manifest.Nodes
import NativeFreeze.Proofs.Node.Sample
import NativeFreeze.Proofs.Path.Extension

/-!
# Generated files and inputs

The generated source of a script takes its place beside the script, with another extension. So a node
writes no file twice, and none over an input of its own, exactly if no two of its scripts differ only in
their extension, none of its inputs is what a script would be with the extension of generated sources,
and its descriptor is no input either.
-/

namespace NativeFreeze

variable {u v : BuildUnit} {s : ScriptUnit} {p q : Path} {node : Node} {requests : List Request}

/-! ## Units -/

namespace BuildUnit

/-- The script of a unit that is one. -/
def script? : BuildUnit → Option ScriptUnit
  | script u => some u
  | native _ | descriptor _ | data _ => none

/-- The descriptor that is generated for a unit. -/
def generatedDescriptor? : BuildUnit → Option Path
  | descriptor u => if u.isGenerated then some u.path else none
  | script _ | native _ | data _ => none

/-- The file that a unit is read from. -/
def inputPath? : BuildUnit → Option Path
  | script u => some u.inputPath
  | native u => some u.sourcePath
  | descriptor u => if u.isGenerated then none else some u.path
  | data u => some u.source.path

theorem generatedFile?_eq_some_iff : u.generatedFile? = some p ↔
    (∃ s, u.script? = some s ∧ s.generated = p) ∨ u.generatedDescriptor? = some p := by
  cases u <;> simp [generatedFile?, script?, generatedDescriptor?]

theorem isModuleSource_of_generatedDescriptor? (sound : u.Sound requests)
    (h : u.generatedDescriptor? = some p) : isModuleSource p = false := by
  cases u with
  | script u => simp [generatedDescriptor?] at h
  | native u => simp [generatedDescriptor?] at h
  | data u => simp [generatedDescriptor?] at h
  | descriptor u =>
    rw [generatedDescriptor?, Option.ite_none_right_eq_some] at h
    obtain rfl := Option.some.inj h.2
    exact DescriptorUnit.isModuleSource_path sound

theorem sound_of_script? (sound : u.Sound requests) (h : u.script? = some s) :
    s.Sound requests := by
  cases u with
  | script u => exact Option.some.inj h ▸ sound
  | native u => simp [script?] at h
  | descriptor u => simp [script?] at h
  | data u => simp [script?] at h

end BuildUnit

theorem isModuleSource_of_same (h : p.same q = true) : isModuleSource p = isModuleSource q := by
  rw [isModuleSource, isModuleSource, isHeader, isHeader, Path.suffix_of_same h]

/-- A generated source is no descriptor, whatever they are named. -/
theorem BuildUnit.script_apart_descriptor (hu : u.Sound requests) (hv : v.Sound requests)
    (script : u.script? = some s) (descriptor : v.generatedDescriptor? = some p) :
    s.generated.same p = false := by
  by_contra same
  have kind := isModuleSource_of_same (Bool.not_eq_false _ ▸ same : s.generated.same p = true)
  rw [(sound_of_script? hu script).isModuleSource_generated,
    isModuleSource_of_generatedDescriptor? hv descriptor] at kind
  exact Bool.false_ne_true kind.symm

namespace ScriptUnit

/-- A script that keeps a name without its extension: its stem is no dot. -/
def HasName (s : ScriptUnit) : Prop :=
  s.inputPath.stem? ≠ some ['.']

instance (s : ScriptUnit) : Decidable s.HasName :=
  inferInstanceAs (Decidable (_ ≠ _))

/-- The generated source of a script is named as the script is, up to the extension. -/
theorem Sound.generated_eq (sound : s.Sound requests) :
    s.generated = s.inputPath.withSuffix generatedSuffix ∧ ∃ stem, s.inputPath.stem? = some stem := by
  obtain ⟨input, home, start, made, onward⟩ := sound.made
  obtain ⟨known, rfl⟩ := ofPath_eq_ok made
  have path : s.inputPath = (Source.resolve input home).path := by
    rw [inputPath, onward.named]
    rfl
  have file : (Source.resolve input home).path.fileName? ≠ none :=
    Path.fileName?_ne_none (by rwa [Source.suffix_resolve known])
  obtain ⟨name, named⟩ := Option.ne_none_iff_exists'.mp file
  refine ⟨by rw [onward.generated, path]; rfl, ?_⟩
  exact ⟨_, by rw [path, Path.stem?, named, Option.map_some]⟩

variable {s' : ScriptUnit}

/-- Two scripts share their generated source exactly if they differ only in their extension. -/
theorem generated_same_iff (sound : s.Sound requests) (sound' : s'.Sound requests)
    (named : s.HasName) (named' : s'.HasName) :
    s.generated.same s'.generated = true ↔ s.inputPath.Twins s'.inputPath := by
  obtain ⟨generated, stem, hs⟩ := sound.generated_eq
  obtain ⟨generated', stem', hs'⟩ := sound'.generated_eq
  rw [generated, generated']
  have plain : '/' ∉ "cpp".toList := by decide
  refine Path.withSuffix_same_iff plain hs hs' ?_ ?_
  · rintro rfl
    exact named hs
  · rintro rfl
    exact named' hs'

/-- The generated source of a script is a given file exactly if that is its twin with the extension of
generated sources. -/
theorem generated_same_iff_suffix (sound : s.Sound requests) (named : s.HasName) (q : Path) :
    s.generated.same q = true ↔ s.inputPath.Twins q ∧ q.suffix = generatedSuffix := by
  obtain ⟨generated, stem, hs⟩ := sound.generated_eq
  rw [generated]
  have plain : '/' ∉ "cpp".toList := by decide
  refine Path.withSuffix_same_iff_suffix plain (by decide) hs ?_
  rintro rfl
  exact named hs

end ScriptUnit

/-! ## Nodes -/

/-- The units of a part. -/
def Part.units : Part → List BuildUnit
  | unit u => [u]
  | data d => d.units.map .data

namespace Node

/-- The units of a node, the main unit of an executable first. -/
def units : Node → List BuildUnit
  | module m => m.units
  | package p => p.module.units
  | executable e => e.main :: e.parts.flatMap Part.units
  | data d => d.units.map .data

/-- The scripts of a node. -/
def scripts (node : Node) : List ScriptUnit :=
  node.units.filterMap BuildUnit.script?

/-- The descriptors that are generated for a node. -/
def descriptors (node : Node) : List Path :=
  node.units.filterMap BuildUnit.generatedDescriptor?

/-- The files that the units of a node are read from. -/
def inputPaths (node : Node) : List Path :=
  node.units.filterMap BuildUnit.inputPath?

theorem generatedFiles_eq (node : Node) :
    node.generatedFiles = node.units.filterMap BuildUnit.generatedFile? := by
  have data (us : List DataUnit) : (us.map BuildUnit.data).filterMap BuildUnit.generatedFile? = [] := by
    induction us with
    | nil => rfl
    | cons u us ih => exact ih
  cases node with
  | module m => rfl
  | package p => rfl
  | data d => exact (data d.units).symm
  | executable e =>
    have parts (ps : List Part) : ps.filterMap Part.generatedFile? =
        (ps.flatMap Part.units).filterMap BuildUnit.generatedFile? := by
      induction ps with
      | nil => rfl
      | cons p ps ih =>
        rw [List.filterMap_cons, List.flatMap_cons, List.filterMap_append, ← ih]
        cases p with
        | unit u =>
          rw [Part.generatedFile?, Part.units, List.filterMap_cons]
          cases u.generatedFile? <;> rfl
        | data d => rw [Part.units, data, Part.generatedFile?, List.nil_append]
    rw [generatedFiles, ExecutableNode.generatedFiles, units, parts, List.filterMap_cons]
    cases e.main.generatedFile? <;> rfl

theorem mem_generatedFiles : p ∈ node.generatedFiles ↔
    (∃ s ∈ node.scripts, s.generated = p) ∨ p ∈ node.descriptors := by
  rw [generatedFiles_eq, scripts, descriptors]
  simp only [List.mem_filterMap, BuildUnit.generatedFile?_eq_some_iff]
  constructor
  · rintro ⟨u, hu, ⟨s, hs, rfl⟩ | hp⟩
    · exact .inl ⟨s, ⟨u, hu, hs⟩, rfl⟩
    · exact .inr ⟨u, hu, hp⟩
  · rintro (⟨s, ⟨u, hu, hs⟩, rfl⟩ | ⟨u, hu, hp⟩)
    · exact ⟨u, hu, .inl ⟨s, hs, rfl⟩⟩
    · exact ⟨u, hu, .inr hp⟩

theorem Sound.unit (sound : node.Sound requests) (hu : u ∈ node.units) : u.Sound requests := by
  have data {us : List DataUnit} (hu : u ∈ us.map BuildUnit.data) : u.Sound requests := by
    obtain ⟨v, -, rfl⟩ := List.mem_map.mp hu
    trivial
  cases node with
  | module m => exact sound u hu
  | package p => exact sound u hu
  | data d => exact data hu
  | executable e =>
    rcases List.mem_cons.mp hu with rfl | hu
    · exact sound.1
    · obtain ⟨p, hp, inside⟩ := List.mem_flatMap.mp hu
      have part := sound.2 p hp
      cases p with
      | unit v => exact List.mem_singleton.mp inside ▸ part
      | data d => exact data inside

theorem Sound.script (sound : node.Sound requests) (hs : s ∈ node.scripts) : s.Sound requests := by
  obtain ⟨u, hu, hs⟩ := List.mem_filterMap.mp hs
  exact BuildUnit.sound_of_script? (sound.unit hu) hs

/-- A build of a node writes no file twice beside the sources, and none that it reads. -/
structure SparesInputs (node : Node) : Prop where
  distinct : node.generatedFiles.Pairwise fun p q => p.same q = false
  inputs : ∀ p ∈ node.generatedFiles, ∀ q ∈ node.inputPaths, p.same q = false

/-- No two scripts of a node differ only in their extension, no input is what a script would be with the
extension of generated sources, and the generated descriptors are distinct and no inputs. -/
structure Apart (node : Node) : Prop where
  scripts : node.scripts.Pairwise fun s s' => ¬s.inputPath.Twins s'.inputPath
  sources : ∀ s ∈ node.scripts, ∀ q ∈ node.inputPaths, s.inputPath.Twins q →
    q.suffix ≠ ScriptUnit.generatedSuffix
  descriptors : node.descriptors.Pairwise fun p q => p.same q = false
  described : ∀ p ∈ node.descriptors, ∀ q ∈ node.inputPaths, p.same q = false

/-- Two units generate different files exactly if they are neither scripts that differ only in their
extension nor descriptors that are the same. -/
theorem generatedFile?_apart_iff (hu : u.Sound requests) (hv : v.Sound requests)
    (named : ∀ s, u.script? = some s → s.HasName) (named' : ∀ s, v.script? = some s → s.HasName) :
    (∀ p, u.generatedFile? = some p → ∀ q, v.generatedFile? = some q → p.same q = false) ↔
      (∀ s, u.script? = some s → ∀ s', v.script? = some s' → ¬s.inputPath.Twins s'.inputPath) ∧
      (∀ p, u.generatedDescriptor? = some p → ∀ q, v.generatedDescriptor? = some q →
        p.same q = false) := by
  have scripts {s s' : ScriptUnit} (hs : u.script? = some s) (hs' : v.script? = some s') :
      s.generated.same s'.generated = false ↔ ¬s.inputPath.Twins s'.inputPath := by
    rw [← ScriptUnit.generated_same_iff (BuildUnit.sound_of_script? hu hs)
      (BuildUnit.sound_of_script? hv hs') (named s hs) (named' s' hs'), Bool.not_eq_true]
  simp only [BuildUnit.generatedFile?_eq_some_iff]
  constructor
  · intro apart
    exact ⟨fun s hs s' hs' => (scripts hs hs').mp (apart _ (.inl ⟨s, hs, rfl⟩) _ (.inl ⟨s', hs', rfl⟩)),
      fun p hp q hq => apart p (.inr hp) q (.inr hq)⟩
  · rintro ⟨twins, descriptors⟩ p (⟨s, hs, rfl⟩ | hp) q (⟨s', hs', rfl⟩ | hq)
    · exact (scripts hs hs').mpr (twins s hs s' hs')
    · exact BuildUnit.script_apart_descriptor hu hv hs hq
    · rw [Path.same_comm]
      exact BuildUnit.script_apart_descriptor hv hu hs' hp
    · exact descriptors p hp q hq

/-- A build of a node writes no file twice and none that it reads exactly if the node's files are
apart. -/
theorem sparesInputs_iff (sound : node.Sound requests) (named : ∀ s ∈ node.scripts, s.HasName) :
    node.SparesInputs ↔ node.Apart := by
  have hasName {u : BuildUnit} (hu : u ∈ node.units) (s : ScriptUnit) (hs : u.script? = some s) :
      s.HasName :=
    named s (List.mem_filterMap.mpr ⟨u, hu, hs⟩)
  have distinct : node.generatedFiles.Pairwise (fun p q => p.same q = false) ↔
      node.scripts.Pairwise (fun s s' => ¬s.inputPath.Twins s'.inputPath) ∧
        node.descriptors.Pairwise fun p q => p.same q = false := by
    rw [generatedFiles_eq, scripts, descriptors, List.pairwise_filterMap, List.pairwise_filterMap,
      List.pairwise_filterMap, ← List.pairwise_and_iff]
    exact List.Pairwise.iff_of_mem fun hu hv =>
      generatedFile?_apart_iff (sound.unit hu) (sound.unit hv) (hasName hu) (hasName hv)
  have inputs : (∀ p ∈ node.generatedFiles, ∀ q ∈ node.inputPaths, p.same q = false) ↔
      (∀ s ∈ node.scripts, ∀ q ∈ node.inputPaths, s.inputPath.Twins q →
        q.suffix ≠ ScriptUnit.generatedSuffix) ∧
      ∀ p ∈ node.descriptors, ∀ q ∈ node.inputPaths, p.same q = false := by
    have script {s : ScriptUnit} (hs : s ∈ node.scripts) (q : Path) :
        s.generated.same q = false ↔
          (s.inputPath.Twins q → q.suffix ≠ ScriptUnit.generatedSuffix) := by
      rw [← Bool.not_eq_true, ScriptUnit.generated_same_iff_suffix (sound.script hs) (named s hs),
        not_and]
    constructor
    · intro fresh
      refine ⟨fun s hs q hq => (script hs q).mp ?_, fun p hp => ?_⟩
      · exact fresh _ (mem_generatedFiles.mpr (.inl ⟨s, hs, rfl⟩)) q hq
      · exact fresh p (mem_generatedFiles.mpr (.inr hp))
    · rintro ⟨sources, described⟩ p hp q hq
      rcases mem_generatedFiles.mp hp with ⟨s, hs, rfl⟩ | hp
      · exact (script hs q).mpr (sources s hs q hq)
      · exact described p hp q hq
  constructor
  · rintro ⟨once, fresh⟩
    obtain ⟨scripts, descriptors⟩ := distinct.mp once
    obtain ⟨sources, described⟩ := inputs.mp fresh
    exact ⟨scripts, sources, descriptors, described⟩
  · rintro ⟨scripts, sources, descriptors, described⟩
    exact ⟨distinct.mpr ⟨scripts, descriptors⟩, inputs.mpr ⟨sources, described⟩⟩

end Node

namespace Manifest

variable {m : Manifest} {nodes : List Node} {w w' : Workspace}

/-- No build of a manifest's node eats its own sources, as long as the files of the node are apart; if
they are not, it does. -/
theorem sparesInputs_iff_apart (found : m.nodes.result w = (.ok nodes, w')) (hn : node ∈ nodes)
    (named : ∀ s ∈ node.scripts, s.HasName) : node.SparesInputs ↔ node.Apart :=
  Node.sparesInputs_iff ((nodes_eq_ok found).2 node hn []) named

/-- The node of a script and a hand-written source. -/
def beside (native : String) : Node :=
  .module ⟨"a".toList, [.script (Sample.script "a.py".toList), .native (Sample.native native.toList)],
    false, [], []⟩

theorem nodes_beside :
    ((ofModule ["a.py", "b.cpp"] []).nodes.result (Sample.project ["a.py", "b.cpp"])).1 =
        .ok [beside "b.cpp", .data ⟨[]⟩] ∧
      ((ofModule ["a.py", "a.cpp"] []).nodes.result (Sample.project ["a.py", "a.cpp"])).1 =
        .ok [beside "a.cpp", .data ⟨[]⟩] := by
  decide +kernel

theorem sparesInputs_iff_apart_beside : (beside "b.cpp").SparesInputs ∧ (beside "b.cpp").Apart := by
  have apart : (beside "b.cpp").Apart :=
    ⟨by decide +kernel, by decide +kernel, by decide +kernel, by decide +kernel⟩
  have iff := sparesInputs_iff_apart (Action.result_eq_of_ok nodes_beside.1) List.mem_cons_self
    (by decide +kernel)
  exact ⟨iff.mpr apart, apart⟩

/-- A hand-written source that is named as a script takes the place of the script's generated source. -/
theorem not_sparesInputs_beside : ∃ nodes w' node,
    (ofModule ["a.py", "a.cpp"] []).nodes.result (Sample.project ["a.py", "a.cpp"]) =
        (.ok nodes, w') ∧
      node ∈ nodes ∧ ¬node.SparesInputs := by
  refine ⟨_, _, beside "a.cpp", Action.result_eq_of_ok nodes_beside.2, List.mem_cons_self, ?_⟩
  intro spares
  have same : (Path.mk "a.cpp".toList).same ⟨"a.cpp".toList⟩ = false :=
    spares.inputs _ (by decide +kernel) _ (by decide +kernel)
  simp at same

end Manifest

end NativeFreeze
