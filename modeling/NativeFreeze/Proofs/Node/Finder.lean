import NativeFreeze.Proofs.Generated.Identity
import NativeFreeze.Proofs.Node.Package
import NativeFreeze.Proofs.Unit.Data
import NativeFreeze.Proofs.Unit.Generated

/-!
# Which units get the package finder

When a package is built, every script of it is transpiled and then frozen, and the freeze adds the
finder to the generated source of an initialiser and of nothing else. A package can have several
initialisers: the first one leads and names it, and each of them gets the finder.
-/

namespace NativeFreeze

open Stage

variable {α σ : Type}

/-! ## Turns in a run -/

namespace Stage

/-- The turns of some parts, one after the other, each a success that does what `Did` says. -/
inductive Passes (stage : Stage σ α) (Did : σ → Workspace → Workspace → Prop) :
    List σ → Workspace → Workspace → Prop
  | nil (w : Workspace) : Passes stage Did [] w w
  | cons {part part' : σ} {parts : List σ} {a : α} {w w₁ w' : Workspace}
      (turn : stage.result part w = (.ok a, part', w₁)) (did : Did part w w₁)
      (rest : Passes stage Did parts w₁ w') : Passes stage Did (part :: parts) w w'

theorem Passes.imp {stage : Stage σ α} {Did More : σ → Workspace → Workspace → Prop}
    {parts : List σ} {w w' : Workspace} (h : Passes stage Did parts w w')
    (more : ∀ part ∈ parts, ∀ w w', Did part w w' → More part w w') :
    Passes stage More parts w w' := by
  induction h with
  | nil w => exact .nil w
  | cons turn did _ ih =>
    rw [List.forall_mem_cons] at more
    exact .cons turn (more.1 _ _ did) (ih more.2)

/-- What every turn that succeeds does is done in each turn of a run that succeeds. -/
theorem passes_of_eachResult {stage : Stage σ α} {Did : σ → Workspace → Workspace → Prop}
    (step : ∀ part w a part' w', stage.result part w = (.ok a, part', w') → Did part w w')
    {parts parts' : List σ} {w w' : Workspace} {answers : List α}
    (ran : eachResult stage parts w = (.ok answers, parts', w')) : Passes stage Did parts w w' := by
  induction parts generalizing w answers parts' with
  | nil =>
    obtain ⟨-, -, rfl⟩ : [] = answers ∧ [] = parts' ∧ w = w' := by simpa [eachResult] using ran
    exact .nil w
  | cons part parts ih =>
    obtain ⟨a, part', w₁, rest, rest', turn, later, -, -⟩ := eachResult_cons_eq_ok ran
    exact .cons turn (step part w a part' w₁ turn) (ih later)

end Stage

/-! ## One script -/

theorem PackageIdentity.injectFinder_of_ofName? {name : Text} {isInit : Bool}
    {identity : PackageIdentity} (h : ofName? name isInit = some identity) :
    identity.injectFinder = isInit := by
  unfold ofName? at h
  cases isInit with
  | true =>
    rw [if_pos rfl] at h
    rw [← Option.some.inj h]
  | false =>
    rw [if_neg Bool.false_ne_true] at h
    obtain ⟨leaf, -, rfl⟩ := Option.map_eq_some_iff.mp h
    rfl

theorem Finder.snippet_ne_nil (moduleObject : Text) : snippet moduleObject ≠ [] := by
  intro h
  have lines := (List.append_eq_nil_iff.mp h).2
  rw [String.toList_append] at lines
  exact absurd (List.append_eq_nil_iff.mp lines).2 (by decide)

namespace ScriptUnit

variable {contract : SourceContract} {u v : ScriptUnit} {w w' : Workspace}

/-- Between two file trees the generated source of a unit got the finder, besides the literals of the
unit's identity. -/
def GainsFinder (u : ScriptUnit) (contract : SourceContract) (s t : FileTree) : Prop :=
  ∃ identity text front rest, u.identity? = some identity ∧ s.readText u.generated = .ok text ∧
    front ++ rest = identity.assign contract text ∧
    t.readText u.generated = .ok (front ++ Finder.snippet contract.moduleObject ++ rest)

/-- A freeze that succeeds adds the finder for an initialiser, and for no other unit. -/
theorem gainsFinder_iff (h : (freezePackage contract).result u w = (.ok (), v, w')) :
    u.GainsFinder contract w.files w'.files ↔ u.named.isPackageInit = true := by
  rcases freezePackage_cases contract u w with ⟨e, failed⟩ | ⟨t, done, -, -, patched⟩
  · simp [failed] at h
  obtain rfl : { w with files := t } = w' := by simpa [done] using congrArg (·.2.2) h
  cases mine : u.identity? with
  | none =>
    have plain := (PackageIdentity.ofName?_eq_none mine).1
    simp [GainsFinder, mine, plain]
  | some identity =>
    have inject : identity.injectFinder = u.named.isPackageInit :=
      PackageIdentity.injectFinder_of_ofName? mine
    simp only [mine] at patched
    obtain ⟨text, -, reads, -, -⟩ := id patched
    obtain ⟨out, froze, now⟩ := patched.readText reads
    obtain ⟨front, rest, rfl, whole, -⟩ := PackageIdentity.freeze_eq_ok froze
    constructor
    · rintro ⟨identity', text', front', rest', mine', reads', whole', now'⟩
      obtain rfl := Option.some.inj (mine.symm.trans mine')
      obtain rfl := Except.ok.inj (reads.symm.trans reads')
      cases plain : u.named.isPackageInit with
      | true => rfl
      | false =>
        -- Without the finder the source is as long as what the assignments made of it.
        rw [plain] at inject
        have same := congrArg List.length (Except.ok.inj (now.symm.trans now'))
        have long := congrArg List.length (whole.trans whole'.symm)
        have some := List.length_pos_iff.mpr (Finder.snippet_ne_nil contract.moduleObject)
        simp only [inject, Bool.false_eq_true, if_false, List.append_nil, List.length_append]
          at same long
        omega
    · intro init
      rw [inject, init, if_pos rfl] at now
      exact ⟨identity, text, front, rest, mine, reads, whole, now⟩

theorem transpile_named {tool : Transpiler} {package : Option Bool} {answer : Except Failure Unit}
    (h : (transpile tool package).result u w = (answer, v, w')) :
    v.named = u.named ∧ v.generated = u.generated := by
  cases transpiled : u.state.isTranspiled with
  | true =>
    rw [transpile_again transpiled] at h
    obtain ⟨-, rfl, -⟩ : _ ∧ u = v ∧ _ := by simpa using h
    exact ⟨rfl, rfl⟩
  | false =>
    rw [transpile_first transpiled] at h
    split at h
    · obtain ⟨-, rfl, -⟩ : _ ∧ _ = v ∧ _ := by simpa using h
      exact ⟨rfl, rfl⟩
    · obtain ⟨-, rfl, -⟩ : _ ∧ _ = v ∧ _ := by simpa using h
      exact ⟨rfl, rfl⟩

theorem contribute_files (u : ScriptUnit) (w : Workspace) :
    (contribute.result u w).2.2.files = w.files := by
  simp only [contribute, result_bind, result_part, result_lift, Action.result_record,
    Action.result_ofExcept]
  cases u.registered <;> rfl

/-- Building a script of a package from `w` to `w'` put the finder into what the transpiler had left. -/
def GetsFinder (c : BuildContext) (topic : Log.Topic) (u : ScriptUnit) (w w' : Workspace) : Prop :=
  ∃ v w₁, (transpile c.transpiler (some true)).result u
      { w with log := w.log ++ [⟨.info, topic, "Transpile ".toList ++ u.inputPath.text⟩] } =
        (.ok (), v, w₁) ∧
    u.GainsFinder c.transpiler.contract w₁.files w'.files

theorem getsFinder_iff {c : BuildContext} {topic : Log.Topic} {k : Contribution}
    (h : (build c topic true).result u w = (.ok k, v, w')) :
    u.GetsFinder c topic w w' ↔ u.named.isPackageInit = true := by
  simp only [build, result_bind (part : Stage ScriptUnit _), result_part,
    result_bind (liftM (Action.note _ _ _) : Stage ScriptUnit _), result_lift,
    Action.result_note] at h
  obtain ⟨⟨⟩, u₁, w₁, transpiled, h⟩ := bind_eq_ok h
  obtain ⟨⟨⟩, u₂, w₂, frozen, h⟩ := bind_eq_ok h
  obtain ⟨named, generated⟩ := transpile_named transpiled
  have files : w'.files = w₂.files := by
    rw [← contribute_files u₂ w₂, h]
  have gains := gainsFinder_iff frozen
  rw [GainsFinder, identity?, name, named, generated, ← files] at gains
  constructor
  · rintro ⟨v', w₁', again, gained⟩
    have same := transpiled.symm.trans again
    obtain ⟨-, rfl⟩ : u₁ = v' ∧ w₁ = w₁' := by simpa using same
    exact gains.mp gained
  · intro init
    exact ⟨u₁, w₁, transpiled, gains.mpr init⟩

end ScriptUnit

/-! ## Other units -/

/-- A descriptor that is configured is written, another one is left as it is. -/
theorem DescriptorUnit.written_of_build {u : DescriptorUnit} {w w' : Workspace} {k : Contribution}
    (h : u.build.result w = (.ok k, w')) : u.config = none ∧ w'.files = w.files ∨
      ∃ config, u.config = some config ∧ w'.files.readText u.path = .ok config.render := by
  obtain ⟨⟨⟩, w₁, generated, h⟩ := Action.bind_eq_ok h
  have files : w'.files = w₁.files := by
    split at h
    · simp only [Action.result_bind, Action.result_record, Action.result_pure, Prod.mk.injEq] at h
      rw [← h.2]
    · rw [← (Prod.mk.inj h).2]
  rw [files]
  unfold generate at generated
  cases configured : u.config with
  | none =>
    rw [configured] at generated
    rw [← (Prod.mk.inj generated).2]
    exact .inl ⟨rfl, rfl⟩
  | some config =>
    rw [configured] at generated
    obtain ⟨⟨⟩, w₂, -, generated⟩ := Action.bind_eq_ok generated
    obtain ⟨⟨⟩, w₃, -, changed⟩ := Action.bind_eq_ok generated
    exact .inr ⟨config, rfl, FileTree.readText_write (Action.files_of_change changed)⟩

/-! ## A package -/

namespace PackageNode

variable {c : BuildContext} {p p' : PackageNode} {w w' : Workspace}

/-- The turn of a unit of a package: a script gets the finder exactly if it is an initialiser. A native
source is left alone, a descriptor is written as it is configured or left alone, and a data file is
copied. -/
def FinderTurn (c : BuildContext) : BuildUnit → Workspace → Workspace → Prop
  | .script u, w, w' => u.GetsFinder c .module w w' ↔ isInit (.script u) = true
  | .native _, w, w' => w' = w
  | .descriptor u, w, w' => u.config = none ∧ w'.files = w.files ∨
      ∃ config, u.config = some config ∧ w'.files.readText u.path = .ok config.render
  | .data u, _, w' => ∃ ready : FileTree,
      ready.copy u.source.path (c.dirs.output.join u.source.input) = .ok w'.files

theorem finderTurn {u v : BuildUnit} {k : Contribution}
    (h : (BuildUnit.build c .module true).result u w = (.ok k, v, w')) : FinderTurn c u w w' := by
  cases u with
  | script u =>
    obtain ⟨v, built, -⟩ := form_eq_ok (r := (ScriptUnit.build c .module true).result u w) h
    exact ScriptUnit.getsFinder_iff built
  | native u =>
    obtain ⟨-, -, rfl⟩ : _ ∧ _ ∧ w = w' := by simpa [BuildUnit.build] using h
    rfl
  | descriptor u =>
    rw [BuildUnit.build, result_ofResult] at h
    obtain ⟨answered, -, rfl⟩ : _ ∧ _ ∧ (u.build.result w).2 = w' := by simpa using h
    exact DescriptorUnit.written_of_build (Prod.ext answered rfl)
  | data u =>
    cases cloned : (u.cloneInto c.dirs.output).result w with
    | mk answer w₁ =>
    rw [BuildUnit.build, result_ofResult] at h
    dsimp only at h
    rw [cloned] at h
    cases answer with
    | error e => exact nomatch congrArg Prod.fst h
    | ok target =>
      obtain rfl : w₁ = w' := congrArg (·.2.2) h
      obtain ⟨rfl, ready, -, -, copied⟩ := DataUnit.cloneInto_eq_ok cloned
      exact ⟨ready, copied⟩

/-- A package that is built has its units pass in order. -/
theorem passes_of_process (package : p.module.package = true)
    (h : (process c).result p w = (.ok (), p', w')) : ∃ start built, start.files = w.files ∧
      Passes (BuildUnit.build c .module true) (FinderTurn c) p.module.units start built := by
  obtain ⟨m, ran, -⟩ := onField_eq_ok h
  simp only [ModuleNode.process, result_bind (part : Stage ModuleNode _), result_part,
    result_bind (liftM (Action.note _ _ _) : Stage ModuleNode _), result_lift,
    Action.result_note, package] at ran
  obtain ⟨sources, m₁, w₁, built, -⟩ := bind_eq_ok ran
  obtain ⟨units, made, -⟩ := onField_eq_ok built
  obtain ⟨ks, units', w₂, each, -⟩ := bind_eq_ok made
  refine ⟨_, w₂, ?_, passes_of_eachResult (fun _ _ _ _ _ => finderTurn) each⟩
  rfl

/-- A package is made exactly if there is an initialiser among the units. The first one leads and names
it, and if it is the only one no unit behind it is an initialiser. When the package is built, the
initialisers among its scripts get the finder, and no other unit does. -/
theorem finder_of_initialisers (units : List BuildUnit) :
    ((∃ p, ofUnits units = .ok p) ↔ ∃ u ∈ units, isInit u = true) ∧
    ∀ p, ofUnits units = .ok p →
      (∃ init named, units.find? isInit = some init ∧ p.module.units.head? = some init ∧
        init.named? = some named ∧ p.module.name = named.name) ∧
      (units.countP isInit = 1 → ∀ u ∈ p.module.units.tail, isInit u = false) ∧
      ∀ c w p' w', (process c).result p w = (.ok (), p', w') →
        ∃ start built, start.files = w.files ∧
          Passes (BuildUnit.build c .module true) (FinderTurn c) p.module.units start built := by
  constructor
  · constructor
    · rintro ⟨p, made⟩
      obtain ⟨front, init, back, named, first, -, -⟩ := ofUnits_eq_ok_iff.mp made
      exact ⟨init, by simp [first.split], first.isInit⟩
    · rintro ⟨u, hu, isInit⟩
      cases found : initFirst? units with
      | none => simp [initFirst?_eq_none_iff.mp found u hu] at isInit
      | some pair =>
        obtain ⟨front, back, first, -⟩ := initFirst?_eq_some_iff.mp found
        obtain ⟨named, hn, -⟩ := isInit_eq_true_iff.mp first.isInit
        exact ⟨_, ofUnits_of_firstInit first hn⟩
  · intro p made
    obtain ⟨front, init, back, named, first, hn, rfl⟩ := ofUnits_eq_ok_iff.mp made
    refine ⟨⟨init, named, first.find?_eq, rfl, hn, rfl⟩, ?_, ?_⟩
    · intro one
      exact first.others_of_countP one
    · intro c w p' w' ran
      exact passes_of_process rfl ran

/-- The initialisers of a package and of a package inside it. -/
def layered : List BuildUnit :=
  [.script (Sample.script "a/__init__.py".toList), .script (Sample.script "a/b/__init__.py".toList)]

/-- The package of these initialisers. -/
def layeredPackage : PackageNode :=
  ⟨⟨"a".toList, layered, true, [], []⟩⟩

theorem layered_builds : ∃ p' w',
    (process Sample.context).result layeredPackage Sample.start = (.ok (), p', w') := by
  have works : ((process Sample.context).result layeredPackage Sample.start).1.isOk = true := by
    decide +kernel
  cases ran : ((process Sample.context).result layeredPackage Sample.start).1 with
  | error e =>
    rw [ran] at works
    exact nomatch works
  | ok _ => exact ⟨_, _, result_eq_of_ok ran⟩

theorem finder_of_initialisers_layered :
    (∃ u ∈ layered, isInit u = true) ∧ ofUnits layered = .ok layeredPackage ∧ ∃ p' w',
    (process Sample.context).result layeredPackage Sample.start = (.ok (), p', w') ∧
    ∃ start built, start.files = Sample.start.files ∧
      Passes (BuildUnit.build Sample.context .module true) (FinderTurn Sample.context)
        layered start built := by
  obtain ⟨p', w', ran⟩ := layered_builds
  obtain ⟨made, lead⟩ := finder_of_initialisers layered
  obtain ⟨-, -, passes⟩ := lead layeredPackage rfl
  exact ⟨made.mp ⟨layeredPackage, rfl⟩, rfl, p', w', ran, passes _ _ _ _ ran⟩

/-- Two initialisers make a package, and when it is built both get the finder. -/
theorem not_unique_layered : layered.countP isInit = 2 ∧ ofUnits layered = .ok layeredPackage ∧
    ∃ p' w', (process Sample.context).result layeredPackage Sample.start = (.ok (), p', w') ∧
    ∃ start built, Passes (BuildUnit.build Sample.context .module true)
      (fun u w w' => ∃ s, u = .script s ∧ s.GetsFinder Sample.context .module w w')
      layered start built := by
  obtain ⟨p', w', ran⟩ := layered_builds
  obtain ⟨start, built, -, passes⟩ := passes_of_process rfl ran
  refine ⟨by decide, rfl, p', w', ran, start, built, passes.imp ?_⟩
  have inits : ∀ u ∈ layered, isInit u = true := by decide
  intro u hu w w' turn
  have init := inits u hu
  cases u with
  | script s => exact ⟨s, rfl, turn.mpr init⟩
  | native n => simp [layeredPackage, layered] at hu
  | descriptor d => simp [layeredPackage, layered] at hu
  | data d => simp [layeredPackage, layered] at hu

end PackageNode

end NativeFreeze
