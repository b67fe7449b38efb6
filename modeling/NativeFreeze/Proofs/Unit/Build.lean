import Mathlib.Data.List.Forall2
import NativeFreeze.Node.Module
import NativeFreeze.Proofs.Unit.Lifecycle

/-!
# Building units

While the units of a node are built, no tool but the transpiler is asked. A unit whose build succeeds
keeps its source, contributes what its kind calls for, and, if it is a script, is on record with the
symbol that it contributes.
-/

namespace NativeFreeze

variable {α β σ τ : Type}

/-! ## Stages that ask the transpiler only -/

namespace Stage

/-- A stage that asks no tool but the transpiler. -/
def OnlyTranspiles (x : Stage σ α) : Prop :=
  ∀ s w, ∃ made : List TranspileRequest,
    (x.result s w).2.2.requests = w.requests ++ made.map .transpile

theorem onlyTranspiles_of_keeps {x : Stage σ α}
    (h : ∀ s w, (x.result s w).2.2.requests = w.requests) : x.OnlyTranspiles :=
  fun s w => ⟨[], by simp [h s w]⟩

theorem onlyTranspiles_pure (a : α) : OnlyTranspiles (pure a : Stage σ α) :=
  onlyTranspiles_of_keeps fun _ _ => rfl

theorem onlyTranspiles_part : OnlyTranspiles (part : Stage σ σ) :=
  onlyTranspiles_of_keeps fun _ _ => rfl

theorem onlyTranspiles_lift {x : Action α} (h : x.KeepsRequests) :
    OnlyTranspiles (liftM x : Stage σ α) :=
  onlyTranspiles_of_keeps fun s w => by rw [result_lift]; exact h w

theorem onlyTranspiles_bind {x : Stage σ α} {f : α → Stage σ β} (hx : x.OnlyTranspiles)
    (hf : ∀ a, (f a).OnlyTranspiles) : (x >>= f).OnlyTranspiles := by
  intro s w
  obtain ⟨first, h₁⟩ := hx s w
  rw [result_bind]
  rcases h : x.result s w with ⟨e | a, s₁, w₁⟩
  · rw [h] at h₁
    exact ⟨first, h₁⟩
  · rw [h] at h₁
    obtain ⟨second, h₂⟩ := hf a s₁ w₁
    refine ⟨first ++ second, h₂.trans ?_⟩
    rw [h₁, List.map_append, List.append_assoc]

theorem onlyTranspiles_onField {field : σ → τ} {put : τ → σ → σ} {x : Stage τ α}
    (h : x.OnlyTranspiles) : (onField field put x).OnlyTranspiles :=
  fun s w => h (field s) w

theorem onlyTranspiles_each {x : Stage σ α} (h : x.OnlyTranspiles) : (each x).OnlyTranspiles := by
  intro parts w
  rw [result_each]
  induction parts generalizing w with
  | nil => exact ⟨[], by simp [eachResult]⟩
  | cons part parts ih =>
    obtain ⟨first, h₁⟩ := h part w
    rw [eachResult]
    rcases hx : x.result part w with ⟨e | a, part', w₁⟩
    · rw [hx] at h₁
      exact ⟨first, h₁⟩
    · rw [hx] at h₁
      obtain ⟨second, h₂⟩ := ih w₁
      refine ⟨first ++ second, h₂.trans ?_⟩
      rw [h₁, List.map_append, List.append_assoc]

/-- A run over several parts that succeeds makes an answer and a new part of each, and the requests
that each was due to make. What each step makes stays good while requests are added. -/
theorem eachResult_eq_ok {stage : Stage σ α} (Good : σ → List Request → Prop)
    {Made : σ → α → σ → Prop} {due : σ → List Request}
    (mono : ∀ s requests more, Good s requests → requests ⊆ more → Good s more)
    (step : ∀ s w a s' w', Good s w.requests → stage.result s w = (.ok a, s', w') →
      Made s a s' ∧ Good s' w'.requests ∧ w'.requests = w.requests ++ due s)
    {parts parts' : List σ} {w w' : Workspace} {answers : List α}
    (good : ∀ s ∈ parts, Good s w.requests)
    (h : eachResult stage parts w = (.ok answers, parts', w')) :
    ∃ made : List (α × σ), answers = made.map Prod.fst ∧ parts' = made.map Prod.snd ∧
      List.Forall₂ (fun s m => Made s m.1 m.2) parts made ∧ (∀ s ∈ parts', Good s w'.requests) ∧
      w'.requests = w.requests ++ parts.flatMap due := by
  induction parts generalizing w answers parts' with
  | nil =>
    obtain ⟨rfl, rfl, rfl⟩ : [] = answers ∧ [] = parts' ∧ w = w' := by simpa [eachResult] using h
    exact ⟨[], rfl, rfl, .nil, by simp, by simp⟩
  | cons s parts ih =>
    obtain ⟨a, s', w₁, rest, rest', hs, hr, rfl, rfl⟩ := eachResult_cons_eq_ok h
    obtain ⟨now, good', asked⟩ := step s w a s' w₁ (good s List.mem_cons_self) hs
    have grown : w.requests ⊆ w₁.requests := asked ▸ List.subset_append_left _ _
    obtain ⟨made, rfl, rfl, later, goods, asked'⟩ :=
      ih (fun t ht => mono _ _ _ (good t (List.mem_cons_of_mem s ht)) grown) hr
    have grown' : w₁.requests ⊆ w'.requests := asked' ▸ List.subset_append_left _ _
    refine ⟨(a, s') :: made, rfl, rfl, .cons now later, ?_, ?_⟩
    · intro t ht
      rcases List.mem_cons.mp ht with rfl | ht
      · exact mono _ _ _ good' grown'
      · exact goods t ht
    · rw [asked', asked, List.flatMap_cons, List.append_assoc]

end Stage

open Stage

/-! ## Scripts -/

namespace ScriptUnit

theorem transpile_onlyTranspiles {tool : Transpiler} (keeps : tool.KeepsRequests)
    (package : Option Bool) : (transpile tool package).OnlyTranspiles := by
  intro u w
  cases hs : u.state.isTranspiled with
  | true => exact ⟨[], by simp [transpile_again hs]⟩
  | false =>
    refine ⟨[u.request (package.getD u.package)], ?_⟩
    obtain ⟨x, asked, granted | ⟨e, refused⟩⟩ := transpile_cases keeps hs package w
    · rw [granted]
      exact asked
    · rw [refused]
      exact asked

theorem freezePackage_onlyTranspiles (contract : SourceContract) :
    (freezePackage contract).OnlyTranspiles :=
  onlyTranspiles_of_keeps fun u w => by
    rcases freezePackage_cases contract u w with ⟨e, h⟩ | ⟨t, h, -⟩ <;> rw [h]

theorem freezeExecutable_onlyTranspiles (modules : List RegisteredModule) (standalone : Bool)
    (runtimeDir : Option Text) : (freezeExecutable modules standalone runtimeDir).OnlyTranspiles :=
  onlyTranspiles_of_keeps fun u w => by
    rcases freezeExecutable_cases modules standalone runtimeDir u w with ⟨e, h⟩ | ⟨t, main, h, -⟩ <;>
      rw [h]

theorem contribute_onlyTranspiles : contribute.OnlyTranspiles := by
  refine onlyTranspiles_bind onlyTranspiles_part fun u => ?_
  refine onlyTranspiles_bind (onlyTranspiles_lift (Action.keepsRequests_record _)) fun _ => ?_
  refine onlyTranspiles_bind (onlyTranspiles_lift ?_) fun _ => onlyTranspiles_pure _
  intro w
  rw [Action.result_ofExcept]

theorem build_onlyTranspiles {c : BuildContext} (keeps : c.transpiler.KeepsRequests)
    (topic : Log.Topic) (package : Bool) : (build c topic package).OnlyTranspiles := by
  refine onlyTranspiles_bind onlyTranspiles_part fun u => ?_
  refine onlyTranspiles_bind (onlyTranspiles_lift (Action.keepsRequests_note _ _ _)) fun _ => ?_
  refine onlyTranspiles_bind (transpile_onlyTranspiles keeps _) fun _ => ?_
  cases package with
  | false => exact contribute_onlyTranspiles
  | true =>
    exact onlyTranspiles_bind (freezePackage_onlyTranspiles _) fun _ => contribute_onlyTranspiles

/-- A unit that is transpiled under its own package flag has the symbol that the flag asks for, and
the request for it is on record. -/
theorem transpile_none_eq_ok {tool : Transpiler} (keeps : tool.KeepsRequests) {u v : ScriptUnit}
    {w w' : Workspace} (sound : u.Sound w.requests)
    (h : (transpile tool none).result u w = (.ok (), v, w')) :
    Onward u v ∧ v.symbol = some (moduleSymbol u.name u.package) ∧
      w'.requests = w.requests ++ u.due u.package ∧
      .transpile (u.request u.package) ∈ w'.requests := by
  have turn : (Event.mk (.transpile tool keeps none) ⟨u, w⟩ (.ok ()) ⟨v, w'⟩).Turn :=
    Call.turn_of_result h
  have onward : Onward u v := turn.onward
  have sound : v.Sound w'.requests := turn.sound sound
  obtain ⟨hv, asked⟩ := transpile_eq_ok keeps h
  obtain ⟨transpiled, package⟩ : v.state.isTranspiled = true ∧ v.package = u.package := by
    rw [hv]
    split
    · rename_i transpiled
      exact ⟨transpiled, rfl⟩
    · exact ⟨rfl, rfl⟩
  have given := sound.request_mem transpiled
  rw [request, inputPath, name, onward.named, onward.generated, package] at given
  refine ⟨onward, ?_, asked, given⟩
  rw [sound.coherent.symbol, transpiled, if_pos rfl, name, onward.named, package]
  rfl

theorem freezePackage_eq_ok {contract : SourceContract} {u v : ScriptUnit} {w w' : Workspace}
    (h : (freezePackage contract).result u w = (.ok (), v, w')) :
    v.package = true ∧ w'.requests = w.requests := by
  rcases freezePackage_cases contract u w with ⟨e, hc⟩ | ⟨t, hc, -, package, -⟩
  · simp [hc] at h
  · simp only [hc, Prod.mk.injEq, true_and] at h
    rw [← h.1, ← h.2]
    exact ⟨package, rfl⟩

theorem contribute_eq_ok {u v : ScriptUnit} {w w' : Workspace} {k : Contribution}
    (coherent : u.Coherent) (h : contribute.result u w = (.ok k, v, w')) :
    v = u ∧ w'.requests = w.requests ∧ u.state.isTranspiled = true ∧
      k = ⟨some u.generated, some ⟨u.name, moduleSymbol u.name u.package⟩⟩ := by
  simp only [contribute, result_bind, result_part, result_lift, Action.result_record,
    Action.result_ofExcept, registered, coherent.symbol] at h
  cases hs : u.state.isTranspiled with
  | true =>
    simp only [hs, if_true, result_pure, Prod.mk.injEq, Except.ok.injEq] at h
    obtain ⟨rfl, rfl, rfl⟩ := h
    exact ⟨rfl, rfl, rfl, rfl⟩
  | false => simp [hs] at h

/-- A script that is built keeps its source, makes the request that was due, and contributes the
generated file and the name that it is on record with. -/
theorem build_eq_ok {c : BuildContext} (keeps : c.transpiler.KeepsRequests) {topic : Log.Topic}
    {package : Bool} {u v : ScriptUnit} {w w' : Workspace} {k : Contribution}
    (sound : u.Sound w.requests) (h : (build c topic package).result u w = (.ok k, v, w')) :
    Onward u v ∧ v.Sound w'.requests ∧ v.state.isTranspiled = true ∧
      (package = true → v.package = true) ∧ w'.requests = w.requests ++ u.due package ∧
      k = ⟨some v.generated, some ⟨v.name, moduleSymbol v.name v.package⟩⟩ := by
  simp only [build, result_bind (part : Stage ScriptUnit _), result_part,
    result_bind (liftM (Action.note _ _ _) : Stage ScriptUnit _), result_lift,
    Action.result_note] at h
  obtain ⟨⟨⟩, u₁, w₁, ht, h⟩ := bind_eq_ok h
  have turn : (Event.mk (.transpile c.transpiler keeps (some package)) ⟨u, _⟩ (.ok ())
      ⟨u₁, w₁⟩).Turn := Call.turn_of_result ht
  have onward : Onward u u₁ := turn.onward
  have sound : u₁.Sound w₁.requests := turn.sound sound
  have asked : w₁.requests = w.requests ++ u.due package := (transpile_eq_ok keeps ht).2
  cases package with
  | false =>
    obtain ⟨rfl, requests, transpiled, hk⟩ := contribute_eq_ok sound.coherent h
    exact ⟨onward, by rwa [requests], transpiled, nofun, requests.trans asked, hk⟩
  | true =>
    obtain ⟨⟨⟩, u₂, w₂, hf, h⟩ := bind_eq_ok h
    have turn : (Event.mk (.freezePackage c.transpiler.contract) ⟨u₁, w₁⟩ (.ok ())
      ⟨u₂, w₂⟩).Turn := Call.turn_of_result hf
    have sound : u₂.Sound w₂.requests := turn.sound sound
    obtain ⟨rfl, requests, transpiled, hk⟩ := contribute_eq_ok sound.coherent h
    obtain ⟨package, kept⟩ := freezePackage_eq_ok hf
    exact ⟨onward.trans turn.onward, by rwa [requests], transpiled, fun _ => package,
      requests.trans (kept.trans asked), hk⟩

/-- A unit of a package is asked for under its symbol, whether its build succeeds or not. -/
theorem requests_build {c : BuildContext} (keeps : c.transpiler.KeepsRequests) {u : ScriptUnit}
    (fresh : u.state.isTranspiled = false) (topic : Log.Topic) (w : Workspace) :
    ((build c topic true).result u w).2.2.requests =
      w.requests ++ [.transpile (u.request true)] := by
  have kept (v : ScriptUnit) (x : Workspace) :
      (contribute.result v x).2.2.requests = x.requests := by
    simp only [contribute, result_bind, result_part, result_lift, Action.result_record,
      Action.result_ofExcept]
    cases v.registered <;> rfl
  simp only [build, result_bind, result_part, result_lift, Action.result_note, if_true]
  obtain ⟨x, asked, granted | ⟨e, refused⟩⟩ := transpile_cases keeps fresh (some true)
    { w with log := w.log ++ [⟨.info, topic, "Transpile ".toList ++ u.inputPath.text⟩] }
  · rw [granted]
    dsimp only [Option.getD_some]
    rcases freezePackage_cases c.transpiler.contract (u.transpiledAs true) x with
      ⟨e, failed⟩ | ⟨t, frozen, -⟩
    · rw [failed]
      exact asked
    · rw [frozen]
      exact (kept _ _).trans asked
  · rw [refused]
    exact asked

end ScriptUnit

/-! ## Units -/

theorem DescriptorUnit.build_eq_ok {u : DescriptorUnit} {w w' : Workspace} {k : Contribution}
    (h : u.build.result w = (.ok k, w')) : k = ⟨some u.path, none⟩ := by
  obtain ⟨_, w₁, -, h⟩ := Action.bind_eq_ok h
  split at h
  · obtain ⟨_, w₂, -, h⟩ := Action.bind_eq_ok h
    simpa using (congrArg Prod.fst h).symm
  · simpa using (congrArg Prod.fst h).symm

namespace BuildUnit

/-- A unit as its constructors make it; for a script, at any point of its life. -/
def Sound (requests : List Request) : BuildUnit → Prop
  | script u => u.Sound requests
  | native u => ∃ input home, NativeUnit.ofPath input home = .ok u
  | descriptor u => (∃ input home, DescriptorUnit.existing input home = .ok u) ∨
      ∃ output config, DescriptorUnit.generated output config = .ok u
  | data _ => True

theorem Sound.mono {u : BuildUnit} {requests more : List Request} (h : u.Sound requests)
    (le : requests ⊆ more) : u.Sound more := by
  cases u with
  | script u => exact ScriptUnit.Sound.mono h le
  | native u => exact h
  | descriptor u => exact h
  | data u => trivial

theorem exists_of_map_eq_ok {make : α → BuildUnit} {x : Except Failure α} {u : BuildUnit}
    (h : some <$> make <$> x = .ok (some u)) : ∃ a, x = .ok a ∧ make a = u := by
  cases x with
  | error e => simp [Functor.map, Except.map] at h
  | ok a => exact ⟨a, rfl, by simpa [Functor.map, Except.map] using h⟩

/-- Whatever unit a path makes, it is sound. -/
theorem sound_ofPath? {p : Path} {home : Option Path} {u : BuildUnit}
    (h : ofPath? p home = .ok (some u)) (requests : List Request) : u.Sound requests := by
  unfold ofPath? at h
  split at h
  · obtain ⟨v, hv, rfl⟩ := exists_of_map_eq_ok h
    exact ScriptUnit.sound_ofPath hv requests
  · obtain ⟨v, hv, rfl⟩ := exists_of_map_eq_ok h
    exact ScriptUnit.sound_ofPath hv requests
  · obtain ⟨v, hv, rfl⟩ := exists_of_map_eq_ok h
    exact ⟨p, home, hv⟩
  · obtain ⟨v, hv, rfl⟩ := exists_of_map_eq_ok h
    exact .inl ⟨p, home, hv⟩
  · simp at h

/-- The request that building a unit still has to make. -/
def due (package : Bool) : BuildUnit → List Request
  | script u => u.due package
  | native _ | descriptor _ | data _ => []

/-- What a successful build makes of a unit, and what the unit contributes. -/
inductive Built (package : Bool) : BuildUnit → Contribution → BuildUnit → Prop
  | script {u v : ScriptUnit} (onward : u.Onward v) (transpiled : v.state.isTranspiled = true)
      (flag : package = true → v.package = true) :
      Built package (.script u) ⟨some v.generated, some ⟨v.name, moduleSymbol v.name v.package⟩⟩
        (.script v)
  | native (u : NativeUnit) :
      Built package (.native u)
        ⟨some u.sourcePath, if isHeader u.sourcePath then none else some u.registered⟩ (.native u)
  | descriptor (u : DescriptorUnit) :
      Built package (.descriptor u) ⟨some u.path, none⟩ (.descriptor u)
  | data (u : DataUnit) : Built package (.data u) {} (.data u)

variable {c : BuildContext} {topic : Log.Topic} {package : Bool}

theorem build_onlyTranspiles (keeps : c.transpiler.KeepsRequests) :
    (build c topic package).OnlyTranspiles := by
  intro u w
  cases u with
  | script u => exact ScriptUnit.build_onlyTranspiles keeps topic package u w
  | native u => exact ⟨[], by simp [build]⟩
  | descriptor u =>
    exact ⟨[], (u.build_keepsRequests w).trans (by simp)⟩
  | data u =>
    exact ⟨[], (u.cloneInto_keepsRequests c.dirs.output w).trans (by simp)⟩

theorem build_eq_ok (keeps : c.transpiler.KeepsRequests) {u v : BuildUnit} {w w' : Workspace}
    {k : Contribution} (sound : u.Sound w.requests)
    (h : (build c topic package).result u w = (.ok k, v, w')) :
    Built package u k v ∧ v.Sound w'.requests ∧
      w'.requests = w.requests ++ u.due package := by
  cases u with
  | script u =>
    obtain ⟨v₁, built, rfl⟩ := form_eq_ok (r := (ScriptUnit.build c topic package).result u w) h
    obtain ⟨onward, sound, transpiled, flag, asked, rfl⟩ :=
      ScriptUnit.build_eq_ok keeps sound built
    exact ⟨.script onward transpiled flag, sound, asked⟩
  | native u =>
    simp only [build, result_ofResult, Prod.mk.injEq, Except.ok.injEq] at h
    obtain ⟨rfl, rfl, rfl⟩ := h
    exact ⟨.native u, sound, (List.append_nil _).symm⟩
  | descriptor u =>
    have kept := u.build_keepsRequests w
    obtain ⟨built, rfl⟩ := lift_eq_ok (x := u.build) h
    rw [built] at kept
    rw [DescriptorUnit.build_eq_ok built]
    exact ⟨.descriptor u, sound, kept.trans (List.append_nil _).symm⟩
  | data u =>
    have kept := u.cloneInto_keepsRequests c.dirs.output w
    obtain ⟨_, cloned, rfl, rfl⟩ := action_eq_ok (r := (u.cloneInto c.dirs.output).result w) h
    rw [cloned] at kept
    exact ⟨.data u, trivial, kept.trans (List.append_nil _).symm⟩

end BuildUnit

/-! ## What the extensions say -/

/-- Whether a compiled file holds a module: it is neither a header nor a descriptor. -/
def isModuleSource (p : Path) : Bool :=
  !isHeader p && p.suffix != ".rc".toList

theorem ScriptUnit.Sound.isModuleSource_generated {u : ScriptUnit} {requests : List Request}
    (h : u.Sound requests) : isModuleSource u.generated = true := by
  obtain ⟨input, home, start, made, since⟩ := h.made
  obtain ⟨extension, rfl⟩ := ofPath_eq_ok made
  have file : (Source.resolve input home).path.fileName? ≠ none :=
    Path.fileName?_ne_none (by rwa [Source.suffix_resolve extension])
  have suffix : u.generated.suffix ∈ [generatedSuffix, ['.'], []] := by
    rw [since.generated]
    exact Path.suffix_withSuffix (by decide) (by decide) file
  simp only [List.mem_cons, List.not_mem_nil, or_false] at suffix
  rw [isModuleSource, isHeader]
  rcases suffix with h | h | h <;> rw [h] <;> decide

theorem NativeUnit.isModuleSource_sourcePath {u : NativeUnit} {input : Path} {home : Option Path}
    (h : ofPath input home = .ok u) : isModuleSource u.sourcePath = !isHeader u.sourcePath := by
  obtain ⟨accepted, rfl⟩ := Source.make_ofKind_eq_ok h
  have suffix : (Source.resolve input home).path.suffix = input.suffix :=
    Source.suffix_resolve (SourceKind.suffix_ne_nil accepted) home
  have native : input.suffix ∈ SourceKind.native.suffixes := by
    simpa [SourceKind.accepts] using accepted
  have plain : (input.suffix != ".rc".toList) = true := by
    simp only [SourceKind.suffixes, List.mem_cons, List.not_mem_nil, or_false] at native
    rcases native with h | h | h | h <;> rw [h] <;> decide
  rw [isModuleSource, sourcePath]
  change (_ && (Source.resolve input home).path.suffix != _) = _
  rw [suffix, plain, Bool.and_true]

theorem DescriptorUnit.isModuleSource_path {u : DescriptorUnit} {requests : List Request}
    (h : (BuildUnit.descriptor u).Sound requests) : isModuleSource u.path = false := by
  have made : ∃ input home, SourceKind.descriptor.accepts input = true ∧
      u.path = (Source.resolve input home).path := by
    rcases h with ⟨input, home, h⟩ | ⟨output, config, h⟩
    · obtain ⟨accepted, rfl⟩ := Source.make_ofKind_eq_ok h
      exact ⟨input, home, accepted, rfl⟩
    · obtain ⟨accepted, rfl⟩ := Source.make_ofKind_eq_ok h
      exact ⟨output, none, accepted, rfl⟩
  obtain ⟨input, home, accepted, path⟩ := made
  have descriptor : input.suffix = ".rc".toList := by
    simpa [SourceKind.accepts, SourceKind.suffixes] using accepted
  rw [isModuleSource, path, Source.suffix_resolve (SourceKind.suffix_ne_nil accepted), descriptor]
  simp

end NativeFreeze
