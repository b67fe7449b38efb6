import NativeFreeze.Manifest.Basic
import NativeFreeze.Proofs.FileTree.Footprint
import NativeFreeze.Proofs.Node.Executable
import NativeFreeze.Proofs.Node.Package

/-!
# The nodes of a manifest

What the nodes of a manifest are depends on the file tree only through what the wildcards of its
patterns find and through the data sources that are there. Where a change of the tree reaches neither,
the manifest has the same nodes as before. Their units are as the constructors of units make them.
-/

namespace NativeFreeze

open FileTree

variable {α β : Type} {t t' : FileTree} {Q : α → Prop} {R : β → Prop} {x : Action α}

/-- The units of a node are as the constructors of units make them. -/
def Node.Sound (requests : List Request) : Node → Prop
  | module m => ∀ u ∈ m.units, u.Sound requests
  | package p => ∀ u ∈ p.module.units, u.Sound requests
  | executable e => e.main.Sound requests ∧ ∀ p ∈ e.parts, p.Sound requests
  | data _ => True

/-- The patterns of the sources that an executable is made of. -/
def ExecutableEntry.sourcePatterns (entry : ExecutableEntry) : List Path :=
  entry.sources ++ entry.modules.flatMap (·.sources) ++ entry.packages.flatMap (·.sources)

/-- The patterns of the sources in a manifest. -/
def Manifest.sourcePatterns (m : Manifest) : List Path :=
  m.modules.flatMap (·.sources) ++ m.packages.flatMap (·.sources) ++
    m.executables.flatMap (·.sourcePatterns)

/-- The patterns of the data in a manifest. -/
def Manifest.dataPatterns (m : Manifest) : List Path :=
  m.data.flatMap (·.sources) ++ m.executables.flatMap fun e => e.data.flatMap (·.sources)

/-! ## Answering again -/

namespace Action

/-- What an action answers on `t` it answers on `t'` as well, and it leaves both trees as they are.
The answer has `Q`. -/
def Repeats (t t' : FileTree) (x : Action α) (Q : α → Prop) : Prop :=
  ∀ w w' a w₁, w.files = t → w'.files = t' → x.result w = (.ok a, w₁) →
    Q a ∧ w₁.files = t ∧ ∃ w₁', x.result w' = (.ok a, w₁') ∧ w₁'.files = t'

theorem repeats_pure {a : α} (q : Q a) : Repeats t t' (pure a : Action α) Q := by
  intro w w' b w₁ hw hw' h
  obtain ⟨answer, rfl⟩ := Prod.mk.inj h
  obtain rfl := Except.ok.inj answer
  exact ⟨q, hw, w', rfl, hw'⟩

theorem repeats_throw (e : Failure) : Repeats t t' (throw e : Action α) Q := by
  intro w w' a w₁ _ _ h
  simp at h

theorem repeats_bind {f : α → Action β} (hx : Repeats t t' x Q)
    (hf : ∀ a, Q a → Repeats t t' (f a) R) : Repeats t t' (x >>= f) R := by
  intro w w' b w₂ hw hw' h
  obtain ⟨a, w₁, first, second⟩ := bind_eq_ok h
  obtain ⟨q, hw₁, w₁', first', hw₁'⟩ := hx w w' a w₁ hw hw' first
  obtain ⟨r, hw₂, w₂', second', hw₂'⟩ := hf a q w₁ w₁' b w₂ hw₁ hw₁' second
  refine ⟨r, hw₂, w₂', ?_, hw₂'⟩
  rw [result_bind, first']
  exact second'

theorem repeats_ofExcept (x : Except Failure α) :
    Repeats t t' (ofExcept x) fun a => x = .ok a := by
  cases x with
  | error e => exact repeats_throw e
  | ok a => exact repeats_pure rfl

theorem repeats_note (level : Log.Level) (topic : Log.Topic) (message : Text) :
    Repeats t t' (note level topic message) fun _ => True := by
  intro w w' a w₁ hw hw' h
  obtain ⟨-, rfl⟩ := Prod.mk.inj h
  exact ⟨trivial, hw, _, rfl, hw'⟩

theorem repeats_ask {during : Option Activity} {operation : FileTree → Except FileError α}
    (again : ∀ a, operation t = .ok a → Q a ∧ operation t' = .ok a) :
    Repeats t t' (ask during operation) Q := by
  rintro w w' a w₁ rfl rfl h
  rw [result_ask] at h
  cases answer : operation w.files with
  | error e => simp [answer] at h
  | ok b =>
    simp only [answer, Prod.mk.injEq, Except.ok.injEq] at h
    obtain ⟨rfl, rfl⟩ := h
    obtain ⟨q, answer'⟩ := again b answer
    exact ⟨q, rfl, w', by rw [result_ask, answer'], rfl⟩

theorem repeats_mapM {f : α → Action β} {as : List α} (hf : ∀ a ∈ as, Repeats t t' (f a) R) :
    Repeats t t' (as.mapM f) fun bs => ∀ b ∈ bs, R b := by
  induction as with
  | nil => exact repeats_pure nofun
  | cons a as ih =>
    rw [List.mapM_cons]
    refine repeats_bind (hf a List.mem_cons_self) fun b hb => ?_
    refine repeats_bind (ih fun a ha => hf a (List.mem_cons_of_mem _ ha)) fun bs hbs => ?_
    exact repeats_pure (List.forall_mem_cons.mpr ⟨hb, hbs⟩)

theorem repeats_filterMapM {f : α → Action (Option β)} {as : List α}
    (hf : ∀ a ∈ as, Repeats t t' (f a) fun b? => ∀ b, b? = some b → R b) :
    Repeats t t' (as.filterMapM f) fun bs => ∀ b ∈ bs, R b := by
  induction as with
  | nil => exact repeats_pure nofun
  | cons a as ih =>
    rw [List.filterMapM_cons]
    have rest := ih fun a ha => hf a (List.mem_cons_of_mem _ ha)
    refine repeats_bind (hf a List.mem_cons_self) fun b? hb => ?_
    cases b? with
    | none => exact rest
    | some b =>
      exact repeats_bind rest fun bs hbs =>
        repeats_pure (List.forall_mem_cons.mpr ⟨hb b rfl, hbs⟩)

end Action

theorem Action.Repeats.imp {Q' : α → Prop} (h : Action.Repeats t t' x Q)
    (weaker : ∀ a, Q a → Q' a) : Action.Repeats t t' x Q' := by
  intro w w' a w₁ hw hw' run
  obtain ⟨q, rest⟩ := h w w' a w₁ hw hw' run
  exact ⟨weaker a q, rest⟩

/-! ## Patterns and units -/

variable {written removed : Location → Prop} {home : Path} {pattern : Path}

/-- No file that a wildcard admits, in the directory that it searches, is at one of these locations. -/
def Pattern.Misses (p : Pattern) (home : Path) (t : FileTree) (touched : Location → Prop) : Prop :=
  p.isWild = true → ∀ l, t.at? (p.searched (some home)) = .ok (l, .directory) →
    ∀ name, p.admits name = true → ¬touched (l ++ [name])

/-- The paths that a pattern stands for in a tree. -/
def Pattern.found (p : Pattern) (home : Option Path) (t : FileTree) :
    Except FileError (List Path) :=
  if p.isWild then (t.list (p.searched home)).map p.select else .ok [p.path]

/-- No file that a pattern stands for is at one of these locations. -/
def Pattern.Avoids (p : Pattern) (home : Path) (t : FileTree) (touched : Location → Prop) : Prop :=
  ∀ qs, p.found (some home) t = .ok qs → ∀ q ∈ qs, ∀ l, t.goal true (home.join q) = some l →
    ¬touched l

theorem Pattern.result_expand (p : Pattern) (home : Option Path) (w : Workspace) :
    (p.expand home).result w =
      (Action.ask (some (.listing (p.searched home))) (p.found home)).result w := by
  unfold expand found
  split
  · rw [Action.result_bind, Action.result_ask, Action.result_ask]
    cases w.files.list (p.searched home) <;> rfl
  · rfl

section Changed
variable (changed : Changed written removed t t')
include changed

theorem Pattern.found_again {p : Pattern} {qs : List Path}
    (misses : p.Misses home t fun l => written l ∨ removed l)
    (before : p.found (some home) t = .ok qs) : p.found (some home) t' = .ok qs := by
  unfold found at before ⊢
  split
  · rename_i wild
    rw [if_pos wild] at before
    unfold list at before ⊢
    cases led : t.at? (p.searched (some home)) with
    | error e => simp [led, Except.map] at before
    | ok place =>
      obtain ⟨l, e⟩ := place
      cases e with
      | file content mark => simp [led, Except.map] at before
      | link target => simp [led, Except.map] at before
      | directory =>
        simp only [led, Except.map, Except.ok.injEq] at before
        simp only [changed.at?_directory led, Except.map, ← before]
        exact congrArg Except.ok (changed.select fun name admitted =>
          not_or.mp (misses wild l led name admitted))
  · rename_i plain
    rwa [if_neg plain] at before

/-- A pattern stands for the same paths as before. -/
theorem Pattern.repeats_expand {p : Pattern}
    (misses : p.Misses home t fun l => written l ∨ removed l) :
    Action.Repeats t t' (p.expand (some home)) fun qs => p.found (some home) t = .ok qs := by
  intro w w' qs w₁ hw hw' run
  rw [result_expand] at run ⊢
  exact Action.repeats_ask (fun qs before => ⟨before, found_again changed misses before⟩)
    w w' qs w₁ hw hw' run

omit changed in
theorem BuildUnit.repeats_ofPath (p : Path) (home : Option Path) :
    Action.Repeats t t' (ofPath p home) fun unit =>
      ∀ u, unit = some u → ∀ requests, u.Sound requests := by
  refine Action.repeats_bind (Action.repeats_ofExcept _) fun unit made => ?_
  have answers : Action.Repeats t t' (pure unit : Action (Option BuildUnit)) fun unit =>
      ∀ u, unit = some u → ∀ requests, u.Sound requests :=
    Action.repeats_pure fun u same => sound_ofPath? (same ▸ made)
  dsimp only
  split
  · exact Action.repeats_bind (Action.repeats_note _ _ _) fun _ _ => answers
  · exact answers

theorem BuildUnit.repeats_ofPattern
    (misses : (Pattern.ofPath pattern).Misses home t fun l => written l ∨ removed l) :
    Action.Repeats t t' (ofPattern pattern (some home)) fun units =>
      ∀ u ∈ units, ∀ requests, u.Sound requests :=
  Action.repeats_bind (Pattern.repeats_expand changed misses) fun _ _ =>
    Action.repeats_filterMapM fun q _ => repeats_ofPath q (some home)

theorem BuildUnit.repeats_ofPatterns {patterns : List Path}
    (misses : ∀ p ∈ patterns, (Pattern.ofPath p).Misses home t fun l => written l ∨ removed l) :
    Action.Repeats t t' (ofPatterns patterns (some home)) fun units =>
      ∀ u ∈ units, ∀ requests, u.Sound requests := by
  have each := Action.repeats_mapM fun p hp => repeats_ofPattern changed (misses p hp)
  refine Action.repeats_bind each fun found sound => Action.repeats_pure fun u hu => ?_
  obtain ⟨units, hf, inside⟩ := List.mem_flatten.mp hu
  exact sound units hf u inside

/-- A data source that is there stays there if it is not removed. -/
theorem DataUnit.repeats_ofPath {p : Path}
    (kept : ∀ l, t.goal true (home.join p) = some l → ¬removed l) :
    Action.Repeats t t' (ofPath p (some home)) fun _ => True := by
  intro w w' u w₁ hw hw' run
  simp only [ofPath, Action.result_bind, Action.result_files, hw] at run
  cases led : t.at? (home.join p) with
  | error e => simp [Source.resolve, isThere, led, Except.isOk, Except.toBool] at run
  | ok place =>
    obtain ⟨l, e⟩ := place
    obtain ⟨e', led', -⟩ := changed.at? led fun _ => kept l (goal_of_at? led)
    simp only [Source.resolve, isThere, led, Except.isOk, Except.toBool, if_true,
      Action.result_pure, Prod.mk.injEq, Except.ok.injEq] at run
    obtain ⟨rfl, rfl⟩ := run
    refine ⟨trivial, hw, w', ?_, hw'⟩
    simp only [ofPath, Action.result_bind, Action.result_files, hw', Source.resolve, isThere, led',
      Except.isOk, Except.toBool, if_true, Action.result_pure]

theorem DataUnit.repeats_ofPattern
    (misses : (Pattern.ofPath pattern).Misses home t fun l => written l ∨ removed l)
    (avoids : (Pattern.ofPath pattern).Avoids home t removed) :
    Action.Repeats t t' (ofPattern pattern (some home)) fun _ => True := by
  refine Action.repeats_bind (Pattern.repeats_expand changed misses) fun qs found => ?_
  exact (Action.repeats_mapM fun q hq => repeats_ofPath changed (avoids qs found q hq)).imp
    fun _ _ => trivial

theorem DataNode.repeats_ofPatterns {patterns : List Path}
    (misses : ∀ p ∈ patterns, (Pattern.ofPath p).Misses home t fun l => written l ∨ removed l)
    (avoids : ∀ p ∈ patterns, (Pattern.ofPath p).Avoids home t removed) :
    Action.Repeats t t' (ofPatterns patterns (some home)) fun _ => True := by
  have each := Action.repeats_mapM fun p hp =>
    DataUnit.repeats_ofPattern changed (misses p hp) (avoids p hp)
  exact Action.repeats_bind each fun _ _ => Action.repeats_pure trivial

/-! ## Nodes -/

omit changed in
theorem ModuleNode.units_of_ofUnits {units : List BuildUnit} {package : Bool} {m : ModuleNode}
    (made : ofUnits units package = .ok m) : m.units = units := by
  unfold ofUnits at made
  split at made
  · simp at made
  · exact Except.ok.inj made ▸ rfl

theorem ModuleEntry.repeats_node {entry : ModuleEntry}
    (misses : ∀ p ∈ entry.sources,
      (Pattern.ofPath p).Misses home t fun l => written l ∨ removed l) :
    Action.Repeats t t' (entry.node home) fun m => ∀ u ∈ m.units, ∀ requests, u.Sound requests := by
  refine Action.repeats_bind (Q := fun m => ∀ u ∈ m.units, ∀ requests, u.Sound requests) ?_
    fun m sound => Action.repeats_pure sound
  refine Action.repeats_bind (BuildUnit.repeats_ofPatterns changed misses) fun units sound => ?_
  exact (Action.repeats_ofExcept _).imp fun m made =>
    (ModuleNode.units_of_ofUnits made).symm ▸ sound

theorem PackageEntry.repeats_node {entry : PackageEntry}
    (misses : ∀ p ∈ entry.sources,
      (Pattern.ofPath p).Misses home t fun l => written l ∨ removed l) :
    Action.Repeats t t' (entry.node home) fun p =>
      ∀ u ∈ p.module.units, ∀ requests, u.Sound requests := by
  refine Action.repeats_bind (Q := fun p => ∀ u ∈ p.module.units, ∀ requests, u.Sound requests) ?_
    fun p sound => Action.repeats_pure sound
  refine Action.repeats_bind (BuildUnit.repeats_ofPatterns changed misses) fun units sound => ?_
  exact (Action.repeats_ofExcept _).imp fun p made u hu =>
    sound u (PackageNode.mem_of_ofUnits made hu)

omit changed in
theorem Part.sound_ofInput_descriptor {entry : ExecutableEntry} {inputs : List ExecutableInput}
    (made : entry.descriptorInput home = .ok inputs) :
    ∀ i ∈ inputs, ∀ p ∈ Part.ofInput i, ∀ requests, p.Sound requests := by
  unfold ExecutableEntry.descriptorInput at made
  split at made
  · obtain rfl := Except.ok.inj made
    exact fun i none => absurd none List.not_mem_nil
  · rename_i config _
    dsimp only at made
    generalize home.join _ = file at made
    cases generated : DescriptorUnit.generated file config with
    | error e => simp only [generated, bind, Except.bind, reduceCtorEq] at made
    | ok u =>
      simp only [generated, bind, Except.bind, pure, Except.pure, Except.ok.injEq] at made
      intro i hi p hp requests
      rw [← made, List.mem_singleton] at hi
      rw [hi, Part.ofInput, List.mem_singleton] at hp
      rw [hp]
      exact .inr ⟨file, config, generated⟩

theorem ExecutableEntry.repeats_inputs {entry : ExecutableEntry}
    (misses : ∀ p ∈ entry.sourcePatterns ++ entry.data.flatMap (·.sources),
      (Pattern.ofPath p).Misses home t fun l => written l ∨ removed l)
    (avoids : ∀ p ∈ entry.data.flatMap (·.sources), (Pattern.ofPath p).Avoids home t removed) :
    Action.Repeats t t' (entry.inputs home) fun inputs =>
      ∀ i ∈ inputs, ∀ p ∈ Part.ofInput i, ∀ requests, p.Sound requests := by
  simp only [sourcePatterns, List.forall_mem_append, List.forall_mem_flatMap] at misses avoids
  obtain ⟨⟨⟨loose, modules⟩, packages⟩, data⟩ := misses
  refine Action.repeats_bind (BuildUnit.repeats_ofPatterns changed loose) fun units hu => ?_
  refine Action.repeats_bind (Action.repeats_mapM fun m hm =>
    ModuleEntry.repeats_node changed (modules m hm)) fun ms hm => ?_
  refine Action.repeats_bind (Action.repeats_mapM fun p hp =>
    PackageEntry.repeats_node changed (packages p hp)) fun ps hp => ?_
  refine Action.repeats_bind (Action.repeats_mapM fun d hd =>
    DataNode.repeats_ofPatterns changed (data d hd) (avoids d hd)) fun ds _ => ?_
  refine Action.repeats_pure fun i hi part hpart => ?_
  simp only [List.mem_append, List.mem_map] at hi
  rcases hi with ((⟨u, inside, rfl⟩ | ⟨m, inside, rfl⟩) | ⟨p, inside, rfl⟩) | ⟨d, -, rfl⟩
  · obtain rfl := List.mem_singleton.mp hpart
    exact hu u inside
  · obtain ⟨u, mem, rfl⟩ := List.mem_map.mp hpart
    exact hm m inside u mem
  · obtain ⟨u, mem, rfl⟩ := List.mem_map.mp hpart
    exact hp p inside u mem
  · obtain rfl := List.mem_singleton.mp hpart
    exact fun _ => trivial

theorem ExecutableEntry.repeats_node {entry : ExecutableEntry}
    (misses : ∀ p ∈ entry.sourcePatterns ++ entry.data.flatMap (·.sources),
      (Pattern.ofPath p).Misses home t fun l => written l ∨ removed l)
    (avoids : ∀ p ∈ entry.data.flatMap (·.sources), (Pattern.ofPath p).Avoids home t removed) :
    Action.Repeats t t' (entry.node home) fun e =>
      ∀ requests, (Node.executable e).Sound requests := by
  refine Action.repeats_bind (BuildUnit.repeats_ofPath entry.main (some home)) fun main? hm => ?_
  cases main? with
  | none => exact Action.repeats_throw _
  | some main =>
    refine Action.repeats_bind (repeats_inputs changed misses avoids) fun inputs hi => ?_
    refine Action.repeats_bind (Action.repeats_ofExcept _) fun descriptor hd => ?_
    refine Action.repeats_bind (Action.repeats_ofExcept _) fun e made => ?_
    refine Action.repeats_pure fun requests => ?_
    unfold ExecutableNode.ofInputs at made
    split at made
    · obtain rfl := Except.ok.inj made
      refine ⟨hm main rfl requests, fun p hp => ?_⟩
      obtain ⟨i, hi', inside⟩ := List.mem_flatMap.mp hp
      rcases List.mem_append.mp hi' with source | generated
      · exact hi i source p inside requests
      · exact Part.sound_ofInput_descriptor hd i generated p inside requests
    · simp at made

/-- Where a change reaches neither what the patterns of a manifest find nor its data, the manifest has
the same nodes, and they are sound. -/
theorem Manifest.repeats_nodes {m : Manifest}
    (misses : ∀ p ∈ m.sourcePatterns ++ m.dataPatterns,
      (Pattern.ofPath p).Misses (m.home.getD ⟨[]⟩) t fun l => written l ∨ removed l)
    (avoids : ∀ p ∈ m.dataPatterns, (Pattern.ofPath p).Avoids (m.home.getD ⟨[]⟩) t removed) :
    Action.Repeats t t' m.nodes fun nodes => ∀ node ∈ nodes, ∀ requests, node.Sound requests := by
  simp only [sourcePatterns, dataPatterns, List.forall_mem_append, List.forall_mem_flatMap]
    at misses avoids
  obtain ⟨⟨⟨modules, packages⟩, executables⟩, data, executableData⟩ := misses
  refine Action.repeats_bind (Action.repeats_mapM fun e he =>
    ModuleEntry.repeats_node changed (modules e he)) fun ms hm => ?_
  refine Action.repeats_bind (Action.repeats_mapM fun e he =>
    PackageEntry.repeats_node changed (packages e he)) fun ps hp => ?_
  refine Action.repeats_bind (Action.repeats_mapM fun e he =>
    DataNode.repeats_ofPatterns changed (data e he) (avoids.1 e he)) fun ds _ => ?_
  refine Action.repeats_bind (Action.repeats_mapM fun e he =>
    ExecutableEntry.repeats_node changed ?_ ?_) fun es hes => ?_
  · simp only [List.forall_mem_append, List.forall_mem_flatMap]
    exact ⟨executables e he, executableData e he⟩
  · simp only [List.forall_mem_flatMap]
    exact avoids.2 e he
  · refine Action.repeats_pure fun node hn => ?_
    simp only [List.mem_append, List.mem_map] at hn
    rcases hn with ((⟨m, inside, rfl⟩ | ⟨p, inside, rfl⟩) | ⟨d, -, rfl⟩) | ⟨e, inside, rfl⟩
    · exact fun requests u hu => hm m inside u hu requests
    · exact fun requests u hu => hp p inside u hu requests
    · exact fun _ => trivial
    · exact hes e inside

end Changed

/-- Finding the nodes of a manifest changes no file, and the nodes are sound. -/
theorem Manifest.nodes_eq_ok {m : Manifest} {nodes : List Node} {w w' : Workspace}
    (h : m.nodes.result w = (.ok nodes, w')) :
    w'.files = w.files ∧ ∀ node ∈ nodes, ∀ requests, node.Sound requests := by
  have unchanged : Changed (fun _ => False) (fun _ => False) w.files w.files := .refl _
  obtain ⟨sound, files, -⟩ := repeats_nodes unchanged (m := m)
    (fun _ _ _ _ _ _ _ touched => touched.elim id id) (fun _ _ _ _ _ _ _ _ => id) w w nodes w' rfl
    rfl h
  exact ⟨files, sound⟩

/-- The manifest of a module made of these sources, and of some data. -/
def Manifest.ofModule (sources data : List String) : Manifest where
  home := none
  clean := false
  modules := [⟨sources.map fun p => ⟨p.toList⟩, false, [], []⟩]
  packages := []
  data := [⟨data.map fun p => ⟨p.toList⟩⟩]
  executables := []

end NativeFreeze
