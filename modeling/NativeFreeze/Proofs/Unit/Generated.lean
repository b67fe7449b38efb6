import NativeFreeze.Proofs.FileTree
import NativeFreeze.Proofs.Generated.Bootstrap
import NativeFreeze.Proofs.Node.Sample

/-!
# The text of a generated source

As long as nothing but the calls on a unit touches its generated source, the text in it depends on what
the transpiler wrote and on the freezes that succeeded, and on nothing else. `Written` says which text
that is. Each call keeps it: one that fails leaves the source alone, and a freeze that succeeds patches
what the source held.
-/

namespace NativeFreeze

/-- Only a module of one segment belongs to no package. -/
theorem PackageIdentity.ofName?_eq_none {name : Text} {isInit : Bool}
    (h : ofName? name isInit = none) : isInit = false ∧ '.' ∉ name := by
  unfold ofName? at h
  cases isInit with
  | true => simp at h
  | false =>
    have front : (Text.split '.' name).dropLast = [] := by simpa using h
    refine ⟨rfl, ?_⟩
    obtain ⟨piece, rest, pieces⟩ := List.exists_cons_of_ne_nil (Text.split_ne_nil '.' name)
    cases rest with
    | nil =>
      have whole := Text.join_split '.' name
      rw [pieces] at whole
      obtain rfl : piece = name := by simpa [Text.join] using whole
      exact Text.not_mem_of_mem_split (pieces ▸ List.mem_singleton_self piece)
    | cons second rest => simp [pieces] at front

namespace ScriptUnit

/-- The generated source of a unit holds a text. -/
def Moment.Reads (m : Moment) (s : Text) : Prop :=
  m.workspace.files.readText m.unit.generated = .ok s

instance (m : Moment) (s : Text) : Decidable (m.Reads s) :=
  inferInstanceAs (Decidable (_ = _))

/-- The call of an event, if it is a freeze that succeeded. -/
def Event.freeze? (e : Event) : Option Call :=
  if e.answer.isOk && e.call.isFreeze then some e.call else none

/-- What the generated source of `u` holds after some freezes, where the transpiler wrote `text`. -/
inductive Written (u : ScriptUnit) (text : Text) : List Call → UnitState → Text → Prop
  | transpiled : Written u text [] .transpiled text
  | packageFrozen {contract : SourceContract} {identity : PackageIdentity} {code : Text}
      (mine : u.identity? = some identity)
      (froze : identity.freeze contract text u.generated = .ok code) :
      Written u text [.freezePackage contract] .packageFrozen code
  /-- A module of one segment has no identity to be frozen. -/
  | topLevel {contract : SourceContract} (init : u.named.isPackageInit = false)
      (single : '.' ∉ u.name) : Written u text [.freezePackage contract] .packageFrozen text
  /-- The bootstrap follows what the source held, which was without one. -/
  | executableFrozen {calls : List Call} {state : UnitState} {code : Text} {main : RegisteredModule}
      {modules : List RegisteredModule} {standalone : Bool} {runtimeDir : Option Text}
      (before : Written u text calls state code) (earlier : state ≠ .executableFrozen)
      (registered : u.registered = .ok main) (once : Text.holds Bootstrap.marker code = false) :
      Written u text (calls ++ [.freezeExecutable modules standalone runtimeDir]) .executableFrozen
        (code ++ "\n\n\n".toList ++ Registration.render ⟨main, modules, standalone, runtimeDir⟩)

variable {u v : ScriptUnit} {m n : Moment} {text code : Text} {calls : List Call} {state : UnitState}

theorem Written.withState (h : Written u text calls state code) (s : UnitState) :
    Written { u with state := s } text calls state code := by
  induction h with
  | transpiled => exact .transpiled
  | packageFrozen mine froze => exact .packageFrozen mine froze
  | topLevel init single => exact .topLevel init single
  | executableFrozen _ earlier registered once ih =>
    exact .executableFrozen ih earlier registered once

theorem Written.ne_created (h : Written u text calls state code) : state ≠ .created := by
  cases h <;> simp

theorem Written.of_transpiled (h : Written u text calls .transpiled code) :
    calls = [] ∧ code = text := by
  cases h
  exact ⟨rfl, rfl⟩

/-- The text of a source at a moment is the one that the freezes among the events so far call for. -/
def Stands (text : Text) (past : List Event) (m : Moment) : Prop :=
  m.unit.state = .created ∧ past.filterMap Event.freeze? = [] ∨
    ∃ code, m.Reads code ∧ Written m.unit text (past.filterMap Event.freeze?) m.unit.state code

variable {past : List Event}

theorem Stands.congr (h : Stands text past m) (unit : n.unit = m.unit)
    (same : n.workspace.files.readText m.unit.generated =
      m.workspace.files.readText m.unit.generated) : Stands text past n := by
  simp only [Stands, Moment.Reads, unit, same]
  exact h

theorem Stands.freezes_of_created (h : Stands text past m) (created : m.unit.state = .created) :
    past.filterMap Event.freeze? = [] := by
  rcases h with ⟨-, none⟩ | ⟨code, -, written⟩
  · exact none
  · exact absurd created written.ne_created

theorem Stands.written (h : Stands text past m) (state : m.unit.state ≠ .created) :
    ∃ code, m.Reads code ∧ Written m.unit text (past.filterMap Event.freeze?) m.unit.state code := by
  rcases h with ⟨created, -⟩ | written
  · exact absurd created state
  · exact written

/-! ## One call -/

/-- A call that changes nothing is no freeze that succeeded. -/
theorem Stands.idle {e : Event} (h : Stands text past m) (same : e.after = m)
    (freeze : e.freeze? = none) : Stands text (past ++ [e]) e.after := by
  have none : (past ++ [e]).filterMap Event.freeze? = past.filterMap Event.freeze? := by
    simp [freeze]
  rw [Stands, none, same]
  exact h

/-- A freeze that succeeds patches what the source held. -/
theorem Stands.freeze {e : Event} {call : Call} {goal : UnitState} {u : ScriptUnit}
    (freeze : e.freeze? = some call) (unit : e.after.unit = { u with state := goal })
    (reads : e.after.workspace.files.readText u.generated = .ok code)
    (written : Written u text (past.filterMap Event.freeze? ++ [call]) goal code) :
    Stands text (past ++ [e]) e.after := by
  have some : (past ++ [e]).filterMap Event.freeze? = past.filterMap Event.freeze? ++ [call] := by
    simp [freeze]
  simp only [Stands, Moment.Reads, some, unit]
  exact .inr ⟨code, reads, written.withState goal⟩

theorem Patched.readText {edit : Text → Except Failure Text} {s t : FileTree}
    (h : u.Patched edit s t) (reads : s.readText u.generated = .ok code) :
    ∃ out, edit code = .ok out ∧ t.readText u.generated = .ok out := by
  obtain ⟨old, out, found, edited, wrote⟩ := h
  obtain rfl : old = code := by simpa [found] using reads
  exact ⟨out, edited, FileTree.readText_write wrote⟩

theorem Stands.registered (h : Stands text past m) :
    Stands text (past ++ [Call.registered.event m]) (Call.registered.event m).after := by
  have result : Call.registered.stage.result m.unit m.workspace =
      (m.unit.registered.map fun _ => (), m.unit, m.workspace) := by
    simp [Call.stage, Stage.result_bind]
  rw [Call.event_eq result]
  apply h.idle rfl
  simp [Event.freeze?, Call.isFreeze, Call.target?]

/-- The text that the transpiler wrote is the one to go on from. -/
theorem Stands.transpile (h : Stands text past m) (tool : Transpiler) (keeps : tool.KeepsRequests)
    (package : Option Bool)
    (wrote : ((Call.transpile tool keeps package).event m).granted ≠ [] →
      ((Call.transpile tool keeps package).event m).after.Reads text) :
    Stands text (past ++ [(Call.transpile tool keeps package).event m])
      ((Call.transpile tool keeps package).event m).after := by
  obtain ⟨u, w⟩ := m
  cases transpiled : u.state.isTranspiled with
  | true =>
    have result : (Call.transpile tool keeps package).stage.result u w = (.ok (), u, w) :=
      transpile_again transpiled tool package w
    rw [Call.event_eq result]
    exact h.idle rfl rfl
  | false =>
    have created : u.state = .created := by
      revert transpiled
      cases u.state <;> simp [UnitState.isTranspiled]
    obtain ⟨x, asked, granted | ⟨e, refused⟩⟩ := transpile_cases keeps transpiled package w
    · have result : (Call.transpile tool keeps package).stage.result u w = _ := granted
      rw [Call.event_eq result] at wrote ⊢
      have reads := wrote (by simp [Event.granted, Event.requests, asked, Except.isOk, Except.toBool])
      apply Or.inr
      refine ⟨text, reads, ?_⟩
      rw [List.filterMap_append, h.freezes_of_created created]
      exact .transpiled
    · have result : (Call.transpile tool keeps package).stage.result u w = _ := refused
      rw [Call.event_eq result]
      refine .inl ⟨created, ?_⟩
      rw [List.filterMap_append, h.freezes_of_created created]
      rfl

theorem Stands.freezePackage (h : Stands text past m) (contract : SourceContract) :
    Stands text (past ++ [(Call.freezePackage contract).event m])
      ((Call.freezePackage contract).event m).after := by
  obtain ⟨u, w⟩ := m
  rcases freezePackage_cases contract u w with ⟨e, failed⟩ | ⟨t, done, state, -, patched⟩
  · have result : (Call.freezePackage contract).stage.result u w = _ := failed
    rw [Call.event_eq result]
    exact h.idle rfl rfl
  · have result : (Call.freezePackage contract).stage.result u w = _ := done
    rw [Call.event_eq result]
    obtain ⟨code, reads, written⟩ := h.written (by simp [state])
    simp only [state] at written
    obtain ⟨none, rfl⟩ := written.of_transpiled
    cases mine : u.identity? with
    | some identity =>
      simp only [mine] at patched
      obtain ⟨out, froze, now⟩ := patched.readText reads
      apply Stands.freeze rfl rfl now
      rw [none]
      exact .packageFrozen mine froze
    | none =>
      simp only [mine] at patched
      obtain ⟨init, single⟩ := PackageIdentity.ofName?_eq_none mine
      have kept : t.readText u.generated = .ok code := by
        rw [patched]
        exact reads
      apply Stands.freeze rfl rfl kept
      rw [none]
      exact .topLevel init single

theorem Stands.freezeExecutable (h : Stands text past m) (modules : List RegisteredModule)
    (standalone : Bool) (runtimeDir : Option Text) :
    Stands text (past ++ [(Call.freezeExecutable modules standalone runtimeDir).event m])
      ((Call.freezeExecutable modules standalone runtimeDir).event m).after := by
  obtain ⟨u, w⟩ := m
  rcases freezeExecutable_cases modules standalone runtimeDir u w with
    ⟨e, failed⟩ | ⟨t, main, done, state, registered, patched⟩
  · have result : (Call.freezeExecutable modules standalone runtimeDir).stage.result u w = _ := failed
    rw [Call.event_eq result]
    exact h.idle rfl rfl
  · have result : (Call.freezeExecutable modules standalone runtimeDir).stage.result u w = _ := done
    rw [Call.event_eq result]
    have earlier : u.state ≠ .executableFrozen := by rcases state with state | state <;> simp [state]
    obtain ⟨code, reads, written⟩ := h.written (by rcases state with state | state <;> simp [state])
    obtain ⟨out, appended, now⟩ := patched.readText reads
    obtain ⟨once, rfl⟩ := Registration.append_eq_ok_iff.mp appended
    exact Stands.freeze rfl rfl now (.executableFrozen written earlier registered once)

theorem Stands.call (h : Stands text past m) (call : Call)
    (wrote : (call.event m).granted ≠ [] → (call.event m).after.Reads text) :
    Stands text (past ++ [call.event m]) (call.event m).after := by
  cases call with
  | transpile tool keeps package => exact h.transpile tool keeps package wrote
  | registered => exact h.registered
  | freezePackage contract => exact h.freezePackage contract
  | freezeExecutable modules standalone runtimeDir =>
    exact h.freezeExecutable modules standalone runtimeDir

/-! ## A whole history -/

/-- What is done between the calls leaves the text of the generated source alone. -/
def Undisturbed : List Move → Moment → Prop
  | [], _ => True
  | move :: moves, m =>
    (move.outside m.workspace.files).readText m.unit.generated =
        m.workspace.files.readText m.unit.generated ∧
      Undisturbed moves (move.event m).after

/-- Calls that are made right after each other are undisturbed. -/
theorem undisturbed_map (calls : List Call) (m : Moment) :
    Undisturbed (calls.map fun call => ⟨id, call⟩) m := by
  induction calls generalizing m with
  | nil => trivial
  | cons call calls ih => exact ⟨rfl, ih _⟩

theorem Stands.history {moves : List Move} (h : Stands text past m) (alone : Undisturbed moves m)
    (wrote : ∀ e ∈ history moves m, e.granted ≠ [] → e.after.Reads text) :
    Stands text (past ++ ScriptUnit.history moves m) (finish moves m) := by
  induction moves generalizing past m with
  | nil =>
    rw [ScriptUnit.history, List.append_nil]
    exact h
  | cons move moves ih =>
    obtain ⟨now, later⟩ := alone
    rw [ScriptUnit.history, List.forall_mem_cons] at wrote
    have found : Stands text past
        ⟨m.unit, { m.workspace with files := move.outside m.workspace.files }⟩ := h.congr rfl now
    have called : Stands text (past ++ [move.event m]) (move.event m).after :=
      found.call move.call wrote.1
    rw [ScriptUnit.history, finish, List.append_cons]
    exact ih called later wrote.2

/-- Whatever calls are made on a new unit, and whichever fail: as long as nothing else touches the
generated source, it holds what the transpiler wrote, patched by the freezes that succeeded. -/
theorem written_of_history {start : Moment} (new : start.unit.state = .created) {moves : List Move}
    (alone : Undisturbed moves start)
    (wrote : ∀ e ∈ history moves start, e.granted ≠ [] → e.after.Reads text)
    (state : (finish moves start).unit.state ≠ .created) :
    ∃ code, (finish moves start).Reads code ∧
      Written (finish moves start).unit text ((history moves start).filterMap Event.freeze?)
        (finish moves start).unit.state code := by
  have fresh : Stands text [] start := .inl ⟨new, rfl⟩
  have stands : Stands text ([] ++ history moves start) (finish moves start) :=
    fresh.history alone wrote
  exact stands.written state

/-- Calls on a unit of a package: transpiled, frozen in its package and made executable, each freeze
tried once more behind its success, and the first of them also too early. -/
def patching : List Move :=
  [.freezePackage Sample.contract, .transpile Sample.transpiler Sample.transpiler_keepsRequests (some true),
    .freezePackage Sample.contract, .freezePackage Sample.contract, .freezeExecutable [] false none,
    .freezeExecutable [] true none].map fun call => ⟨id, call⟩

/-- A new unit in a package. -/
def unpatched : Moment :=
  ⟨Sample.script "a/b.py".toList, Sample.start⟩

theorem written_of_history_patching :
    unpatched.unit.state = .created ∧ Undisturbed patching unpatched ∧
    (∀ e ∈ history patching unpatched, e.granted ≠ [] → e.after.Reads Sample.code) ∧
    (finish patching unpatched).unit.state ≠ .created ∧
    ∃ code, (finish patching unpatched).Reads code ∧
      Written (finish patching unpatched).unit Sample.code
        ((history patching unpatched).filterMap Event.freeze?)
        (finish patching unpatched).unit.state code := by
  have new : unpatched.unit.state = .created := rfl
  have alone : Undisturbed patching unpatched := undisturbed_map _ _
  have wrote : ∀ e ∈ history patching unpatched, e.granted ≠ [] → e.after.Reads Sample.code := by
    decide +kernel
  have state : (finish patching unpatched).unit.state ≠ .created := by decide +kernel
  exact ⟨new, alone, wrote, state, written_of_history new alone wrote state⟩

end ScriptUnit

end NativeFreeze
