import NativeFreeze.Proofs.Unit.Script

/-!
# The life of a script unit

A history is what happens when calls are made on a unit one after the other, in any order, with any
arguments and transpilers, while the files are changed from outside between them. `Event.Turn` says
once what a single call can do. From it follows, by induction over the calls, that a unit only moves
forward, that its symbol is the name which its one granted transpile request asked for, that each
freeze succeeds at most once and in order, and that a failed freeze changes nothing.
-/

namespace NativeFreeze

/-- How far a state is along. -/
def UnitState.rank : UnitState → Nat
  | created => 0
  | transpiled => 1
  | packageFrozen => 2
  | executableFrozen => 3

/-- The freezes that are still possible in a state, in the order in which they can be made. -/
def UnitState.freezesAhead : UnitState → List UnitState
  | created | transpiled => [packageFrozen, executableFrozen]
  | packageFrozen => [executableFrozen]
  | executableFrozen => []

theorem UnitState.isTranspiled_iff {s : UnitState} : s.isTranspiled = true ↔ s ≠ created := by
  cases s <;> simp [isTranspiled]

theorem UnitState.isTranspiled_of_rank_le {s t : UnitState} (h : s.rank ≤ t.rank)
    (hs : s.isTranspiled = true) : t.isTranspiled = true := by
  cases s <;> cases t <;> simp_all [rank, isTranspiled]

theorem UnitState.rank_lt_of_mem_freezesAhead {s t : UnitState} (h : t ∈ s.freezesAhead) :
    s.rank < t.rank := by
  cases s <;> cases t <;> simp_all [rank, freezesAhead]

namespace ScriptUnit

/-- A call on a script unit. A transpiler may do and answer anything, but the record of requests is
not its own. -/
inductive Call
  | transpile (tool : Transpiler) (keeps : tool.KeepsRequests) (package : Option Bool)
  | registered
  | freezePackage (contract : SourceContract)
  | freezeExecutable (modules : List RegisteredModule) (standalone : Bool)
      (runtimeDir : Option Text)

namespace Call

/-- What a call runs. -/
def stage : Call → Stage ScriptUnit Unit
  | transpile tool _ package => ScriptUnit.transpile tool package
  | registered => do Action.ofExcept ((← Stage.part).registered.map fun _ => ())
  | freezePackage contract => ScriptUnit.freezePackage contract
  | freezeExecutable modules standalone runtimeDir =>
    ScriptUnit.freezeExecutable modules standalone runtimeDir

/-- The state that a freeze leads to. -/
def target? : Call → Option UnitState
  | transpile .. | registered => none
  | freezePackage _ => some .packageFrozen
  | freezeExecutable .. => some .executableFrozen

/-- Whether a call is a freeze. -/
def isFreeze (call : Call) : Bool :=
  call.target?.isSome

end Call

/-- A unit and the workspace around it. -/
structure Moment where
  unit : ScriptUnit
  workspace : Workspace

/-- A call that was made: what it found, answered and left. -/
structure Event where
  call : Call
  before : Moment
  answer : Except Failure Unit
  after : Moment

namespace Event

/-- The requests that a call made to the transpiler. -/
def requests (e : Event) : List Request :=
  e.after.workspace.requests.drop e.before.workspace.requests.length

/-- The requests that a call made and that were granted. -/
def granted (e : Event) : List Request :=
  if e.answer.isOk then e.requests else []

/-- The state that a successful freeze led to. -/
def froze? (e : Event) : Option UnitState :=
  if e.answer.isOk then e.call.target? else none

end Event

/-- What happens when a call is made. -/
def Call.event (call : Call) (m : Moment) : Event :=
  let result := call.stage.result m.unit m.workspace
  ⟨call, m, result.1, ⟨result.2.1, result.2.2⟩⟩

/-- A call, and what is done to the files from outside before it is made. -/
structure Move where
  outside : FileTree → FileTree
  call : Call

/-- What happens when a move is made. -/
def Move.event (move : Move) (m : Moment) : Event :=
  move.call.event
    ⟨m.unit, { m.workspace with files := move.outside m.workspace.files }⟩

/-- What happens when moves are made one after the other. -/
def history : List Move → Moment → List Event
  | [], _ => []
  | move :: moves, m => move.event m :: history moves (move.event m).after

/-- Where moves lead. -/
def finish : List Move → Moment → Moment
  | [], m => m
  | move :: moves, m => finish moves (move.event m).after

/-- What a call can do to a unit and to the record of requests. -/
inductive Event.Turn (e : Event) : Prop
  /-- A question, a repeated transpile or a failed freeze changes nothing. -/
  | idle (same : e.after = e.before) (froze : e.froze? = none)
  /-- A failed transpile can leave its package flag behind. -/
  | refused (call : e.call.target? = none) (answer : e.answer.isOk = false)
      (state : e.before.unit.state = .created) (package : Bool)
      (unit : e.after.unit = { e.before.unit with package := package })
      (requests : e.after.workspace.requests =
        e.before.workspace.requests ++ [.transpile (e.before.unit.request package)])
  | transpiled (call : e.call.target? = none) (answer : e.answer.isOk = true)
      (state : e.before.unit.state = .created) (package : Bool)
      (unit : e.after.unit = e.before.unit.transpiledAs package)
      (requests : e.after.workspace.requests =
        e.before.workspace.requests ++ [.transpile (e.before.unit.request package)])
  | frozen (goal : UnitState) (froze : e.froze? = some goal)
      (ahead : (goal :: goal.freezesAhead).Sublist e.before.unit.state.freezesAhead)
      (state : e.before.unit.state ≠ .created)
      (package : goal = .packageFrozen → e.before.unit.package = true)
      (unit : e.after.unit = { e.before.unit with state := goal })
      (requests : e.after.workspace.requests = e.before.workspace.requests)

theorem Event.requests_eq {e : Event} {made : List Request}
    (h : e.after.workspace.requests = e.before.workspace.requests ++ made) : e.requests = made := by
  rw [requests, h, List.drop_left]

theorem Event.requests_eq_nil {e : Event}
    (h : e.after.workspace.requests = e.before.workspace.requests) : e.requests = [] := by
  rw [requests, h, List.drop_length]

theorem Call.event_eq {call : Call} {u v : ScriptUnit} {w x : Workspace}
    {answer : Except Failure Unit} (h : call.stage.result u w = (answer, v, x)) :
    call.event ⟨u, w⟩ = ⟨call, ⟨u, w⟩, answer, ⟨v, x⟩⟩ := by
  rw [event, h]

/-- A freeze that either changes nothing or leads from one state to the next is a turn. -/
theorem Event.Turn.of_freeze {call : Call} {u : ScriptUnit} {w : Workspace} {goal : UnitState}
    (target : call.target? = some goal)
    (h : (∃ e, call.stage.result u w = (.error e, u, w)) ∨
      ∃ t, call.stage.result u w = (.ok (), { u with state := goal }, { w with files := t }) ∧
        (goal :: goal.freezesAhead).Sublist u.state.freezesAhead ∧ u.state ≠ .created ∧
        (goal = .packageFrozen → u.package = true)) :
    (call.event ⟨u, w⟩).Turn := by
  rcases h with ⟨e, h⟩ | ⟨t, h, ahead, state, package⟩
  · rw [Call.event_eq h]
    exact .idle rfl rfl
  · rw [Call.event_eq h]
    exact .frozen goal target ahead state package rfl rfl

/-- Every call takes one of these turns. -/
theorem Call.turn (call : Call) (m : Moment) : (call.event m).Turn := by
  obtain ⟨u, w⟩ := m
  cases call with
  | registered =>
    have h : registered.stage.result u w = (u.registered.map fun _ => (), u, w) := by
      simp [stage, Stage.result_bind]
    rw [event_eq h]
    refine .idle rfl ?_
    simp [Event.froze?, target?]
  | transpile tool keeps package =>
    cases hs : u.state.isTranspiled with
    | true =>
      have h : (Call.transpile tool keeps package).stage.result u w = (.ok (), u, w) :=
        transpile_again hs tool package w
      rw [event_eq h]
      exact .idle rfl rfl
    | false =>
      have state : u.state = .created := by
        revert hs
        cases u.state <;> simp [UnitState.isTranspiled]
      obtain ⟨x, asked, granted | ⟨e, refused⟩⟩ := transpile_cases keeps hs package w
      · have h : (Call.transpile tool keeps package).stage.result u w = _ := granted
        rw [event_eq h]
        exact .transpiled rfl rfl state _ rfl asked
      · have h : (Call.transpile tool keeps package).stage.result u w = _ := refused
        rw [event_eq h]
        exact .refused rfl rfl state _ rfl asked
  | freezePackage contract =>
    refine .of_freeze rfl ?_
    rcases freezePackage_cases contract u w with h | ⟨t, h, state, package, _⟩
    · exact .inl h
    · refine .inr ⟨t, h, ?_, ?_, fun _ => package⟩ <;> simp [state, UnitState.freezesAhead]
  | freezeExecutable modules standalone runtimeDir =>
    refine .of_freeze rfl ?_
    rcases freezeExecutable_cases modules standalone runtimeDir u w with
      h | ⟨t, main, h, state | state, _⟩
    · exact .inl h
    · refine .inr ⟨t, h, ?_, ?_, ?_⟩ <;> simp [state, UnitState.freezesAhead]
    · refine .inr ⟨t, h, ?_, ?_, ?_⟩ <;> simp [state, UnitState.freezesAhead]

theorem Call.turn_of_result {call : Call} {u v : ScriptUnit} {w x : Workspace}
    {answer : Except Failure Unit} (h : call.stage.result u w = (answer, v, x)) :
    (Event.mk call ⟨u, w⟩ answer ⟨v, x⟩).Turn :=
  event_eq h ▸ call.turn ⟨u, w⟩

/-! ## What one call hands on -/

/-- The fields of a unit belong together: its symbol is the name that it was transpiled under, and
no unit outside a package is frozen in one. -/
structure Coherent (u : ScriptUnit) : Prop where
  symbol : u.symbol = if u.state.isTranspiled then some (moduleSymbol u.name u.package) else none
  package : u.state = .packageFrozen → u.package = true

/-- The transpile request that a unit's symbol stands for. -/
def given (u : ScriptUnit) : List Request :=
  u.symbol.toList.map fun symbol => .transpile ⟨u.inputPath, u.generated, symbol⟩

/-- `v` is what `u` can become: the same source, at least as far along, and with the symbol and the
package flag that `u` has once it is transpiled. -/
structure Onward (u v : ScriptUnit) : Prop where
  named : v.named = u.named
  generated : v.generated = u.generated
  rank : u.state.rank ≤ v.state.rank
  settled : u.state.isTranspiled = true → v.symbol = u.symbol ∧ v.package = u.package

theorem Onward.refl (u : ScriptUnit) : Onward u u :=
  ⟨rfl, rfl, Nat.le_refl _, fun _ => ⟨rfl, rfl⟩⟩

theorem Onward.trans {u v x : ScriptUnit} (huv : Onward u v) (hvx : Onward v x) : Onward u x where
  named := hvx.named.trans huv.named
  generated := hvx.generated.trans huv.generated
  rank := Nat.le_trans huv.rank hvx.rank
  settled hu := by
    have hv := hvx.settled (UnitState.isTranspiled_of_rank_le huv.rank hu)
    exact ⟨hv.1.trans (huv.settled hu).1, hv.2.trans (huv.settled hu).2⟩

/-- A unit in the course of its life, beside the requests on record: it was made from a path, its
fields belong together, and its transpile request was made. -/
structure Sound (u : ScriptUnit) (requests : List Request) : Prop where
  made : ∃ input home start, ofPath input home = .ok start ∧ Onward start u
  coherent : u.Coherent
  recorded : u.given ⊆ requests

theorem Sound.mono {u : ScriptUnit} {requests more : List Request} (h : u.Sound requests)
    (le : requests ⊆ more) : u.Sound more :=
  { h with recorded := List.Subset.trans h.recorded le }

/-- The request that a transpiled unit stands on is on record. -/
theorem Sound.request_mem {u : ScriptUnit} {requests : List Request} (h : u.Sound requests)
    (transpiled : u.state.isTranspiled = true) : .transpile (u.request u.package) ∈ requests := by
  refine h.recorded ?_
  rw [given, h.coherent.symbol, transpiled]
  exact List.mem_singleton.mpr rfl

theorem coherent_fresh (named : NamedSource) (generated : Path) :
    Coherent { named := named, generated := generated } :=
  ⟨rfl, nofun⟩

theorem Coherent.symbol_eq_none {u : ScriptUnit} (h : u.Coherent) (created : u.state = .created) :
    u.symbol = none := by
  rw [h.symbol, created]
  rfl

theorem sound_ofPath {u : ScriptUnit} {input : Path} {home : Option Path}
    (h : ofPath input home = .ok u) (requests : List Request) : u.Sound requests where
  made := ⟨input, home, u, h, .refl u⟩
  coherent := by rw [(ofPath_eq_ok h).2]; exact coherent_fresh _ _
  recorded := by rw [(ofPath_eq_ok h).2]; exact List.nil_subset _

namespace Event.Turn

variable {e : Event}

theorem coherent (turn : e.Turn) (h : e.before.unit.Coherent) : e.after.unit.Coherent := by
  cases turn with
  | idle same => rwa [same]
  | refused _ _ state _ unit =>
    rw [unit]
    exact ⟨by simp [h.symbol_eq_none state, state, UnitState.isTranspiled], by simp [state]⟩
  | transpiled _ _ _ _ unit =>
    rw [unit]
    exact ⟨rfl, nofun⟩
  | frozen goal _ ahead state package unit =>
    have transpiled := UnitState.isTranspiled_iff.mpr state
    have rank := UnitState.rank_lt_of_mem_freezesAhead (ahead.subset List.mem_cons_self)
    have symbol := h.symbol
    rw [transpiled] at symbol
    rw [unit]
    refine ⟨?_, package⟩
    rw [UnitState.isTranspiled_of_rank_le (Nat.le_of_lt rank) transpiled]
    exact symbol

theorem onward (turn : e.Turn) : Onward e.before.unit e.after.unit := by
  cases turn with
  | idle same =>
    rw [same]
    exact .refl _
  | refused _ _ state _ unit =>
    rw [unit]
    exact ⟨rfl, rfl, Nat.le_refl _, by simp [state, UnitState.isTranspiled]⟩
  | transpiled _ _ state _ unit =>
    rw [unit]
    exact ⟨rfl, rfl, by simp [state, UnitState.rank], by simp [state, UnitState.isTranspiled]⟩
  | frozen goal _ ahead _ _ unit =>
    have rank := UnitState.rank_lt_of_mem_freezesAhead (ahead.subset List.mem_cons_self)
    rw [unit]
    exact ⟨rfl, rfl, Nat.le_of_lt rank, fun _ => ⟨rfl, rfl⟩⟩

/-- A granted request is the one that the symbol stands for from then on. -/
theorem given_append_granted (turn : e.Turn) (h : e.before.unit.Coherent) :
    e.before.unit.given ++ e.granted = e.after.unit.given := by
  cases turn with
  | idle same =>
    have none : e.requests = [] := Event.requests_eq_nil (by rw [same])
    rw [Event.granted, none, ite_self, List.append_nil, same]
  | refused _ answer _ _ unit =>
    rw [Event.granted, answer, unit]
    exact List.append_nil _
  | transpiled _ answer state _ unit requests =>
    rw [Event.granted, answer, Event.requests_eq requests, given, h.symbol_eq_none state, unit]
    rfl
  | frozen _ _ _ _ _ unit requests =>
    rw [Event.granted, Event.requests_eq_nil requests, ite_self, List.append_nil, unit]
    rfl

/-- A transpiled unit asks the transpiler no more. -/
theorem requests_eq_nil (turn : e.Turn) (h : e.before.unit.state.isTranspiled = true) :
    e.requests = [] := by
  have state := UnitState.isTranspiled_iff.mp h
  cases turn with
  | idle same => exact Event.requests_eq_nil (by rw [same])
  | refused _ _ created => exact absurd created state
  | transpiled _ _ created => exact absurd created state
  | frozen _ _ _ _ _ _ requests => exact Event.requests_eq_nil requests

/-- No request is ever taken back. -/
theorem requests_prefix (turn : e.Turn) :
    e.before.workspace.requests <+: e.after.workspace.requests := by
  cases turn with
  | idle same => exact same ▸ List.prefix_refl _
  | refused _ _ _ _ _ requests => exact requests ▸ List.prefix_append _ _
  | transpiled _ _ _ _ _ requests => exact requests ▸ List.prefix_append _ _
  | frozen _ _ _ _ _ _ requests => exact requests ▸ List.prefix_refl _

theorem sound (turn : e.Turn) (h : e.before.unit.Sound e.before.workspace.requests) :
    e.after.unit.Sound e.after.workspace.requests where
  made := by
    obtain ⟨input, home, start, made, onward⟩ := h.made
    exact ⟨input, home, start, made, onward.trans turn.onward⟩
  coherent := turn.coherent h.coherent
  recorded := by
    have granted : e.granted ⊆ e.after.workspace.requests := by
      rw [Event.granted]
      split
      · exact List.drop_subset _ _
      · exact List.nil_subset _
    rw [← turn.given_append_granted h.coherent]
    have kept := List.Subset.trans h.recorded turn.requests_prefix.subset
    exact List.append_subset.mpr ⟨kept, granted⟩

/-- A freeze uses up what it reaches and all that comes before. -/
theorem froze_sublist (turn : e.Turn) :
    (e.froze?.toList ++ e.after.unit.state.freezesAhead).Sublist
      e.before.unit.state.freezesAhead := by
  cases turn with
  | idle same froze => rw [froze, same]; exact .refl _
  | refused call _ _ _ unit =>
    rw [Event.froze?, call, ite_self, unit]
    exact .refl _
  | transpiled call _ state _ unit =>
    rw [Event.froze?, call, ite_self, unit, state]
    exact .refl _
  | frozen goal froze ahead _ _ unit => rw [froze, unit]; exact ahead

theorem after_eq_before (turn : e.Turn) (freeze : e.call.isFreeze = true)
    (failed : e.answer.isOk = false) : e.after = e.before := by
  cases turn with
  | idle same => exact same
  | refused call => simp [Call.isFreeze, call] at freeze
  | transpiled call => simp [Call.isFreeze, call] at freeze
  | frozen goal froze => simp [Event.froze?, failed] at froze

end Event.Turn

/-! ## What a history hands on -/

theorem Move.turn (move : Move) (m : Moment) : (move.event m).Turn :=
  move.call.turn _

theorem history_turn {moves : List Move} {m : Moment} {e : Event} (h : e ∈ history moves m) :
    e.Turn := by
  induction moves generalizing m with
  | nil => exact absurd h List.not_mem_nil
  | cons move moves ih =>
    rcases List.mem_cons.mp h with rfl | h
    · exact move.turn m
    · exact ih h

variable {m : Moment}

theorem finish_coherent (moves : List Move) (h : m.unit.Coherent) :
    (finish moves m).unit.Coherent := by
  induction moves generalizing m with
  | nil => exact h
  | cons move moves ih => exact ih ((move.turn m).coherent h)

theorem finish_sound (moves : List Move) (h : m.unit.Sound m.workspace.requests) :
    (finish moves m).unit.Sound (finish moves m).workspace.requests := by
  induction moves generalizing m with
  | nil => exact h
  | cons move moves ih => exact ih ((move.turn m).sound h)

theorem finish_onward (moves : List Move) (m : Moment) :
    Onward m.unit (finish moves m).unit := by
  induction moves generalizing m with
  | nil => exact .refl _
  | cons move moves ih => exact (move.turn m).onward.trans (ih _)

theorem given_append_history (moves : List Move) (h : m.unit.Coherent) :
    m.unit.given ++ (history moves m).flatMap Event.granted = (finish moves m).unit.given := by
  induction moves generalizing m with
  | nil => exact List.append_nil _
  | cons move moves ih =>
    have turn := move.turn m
    have now : m.unit.given ++ (move.event m).granted = (move.event m).after.unit.given :=
      turn.given_append_granted h
    rw [history, List.flatMap_cons, ← List.append_assoc, now, ih (turn.coherent h)]
    rfl

theorem history_requests_eq_nil (moves : List Move)
    (transpiled : m.unit.state.isTranspiled = true) :
    (history moves m).flatMap Event.requests = [] := by
  induction moves generalizing m with
  | nil => rfl
  | cons move moves ih =>
    have turn := move.turn m
    have now : (move.event m).requests = [] := turn.requests_eq_nil transpiled
    rw [history, List.flatMap_cons, now, List.nil_append]
    exact ih (UnitState.isTranspiled_of_rank_le turn.onward.rank transpiled)

theorem history_froze_sublist (moves : List Move) (m : Moment) :
    ((history moves m).filterMap Event.froze? ++ (finish moves m).unit.state.freezesAhead).Sublist
      m.unit.state.freezesAhead := by
  induction moves generalizing m with
  | nil => exact .refl _
  | cons move moves ih =>
    have now := (move.turn m).froze_sublist
    have later := ih (move.event m).after
    have split : (history (move :: moves) m).filterMap Event.froze? =
        (move.event m).froze?.toList ++
          (history moves (move.event m).after).filterMap Event.froze? := by
      rw [history, List.filterMap_cons]
      cases (move.event m).froze? <;> rfl
    rw [split, List.append_assoc]
    exact (later.append_left _).trans now

/-! ## The life of a unit -/

/-- What holds of a unit at a moment `m`, after the events `past`, and at a later moment `n`, after
the further events `future`. -/
structure Lifecycle (past : List Event) (m : Moment) (future : List Event) (n : Moment) : Prop where
  /-- The state only moves forward. -/
  forward : m.unit.state.rank ≤ n.unit.state.rank
  symbol_isSome_iff : m.unit.symbol.isSome = true ↔ m.unit.state ≠ .created
  symbol_eq : ∀ symbol ∈ m.unit.symbol, symbol = moduleSymbol m.unit.name m.unit.package
  /-- The transpiler granted nothing to a unit without a symbol, and else one request, in which the
  symbol is the module name. -/
  granted : past.flatMap Event.granted =
    m.unit.symbol.toList.map fun symbol =>
      .transpile ⟨m.unit.inputPath, m.unit.generated, symbol⟩
  /-- From the granted request on, no other is made, and symbol and package flag stay. -/
  settled : m.unit.state ≠ .created → future.flatMap Event.requests = [] ∧
    n.unit.symbol = m.unit.symbol ∧ n.unit.package = m.unit.package
  package_of_frozen : m.unit.state = .packageFrozen → m.unit.package = true
  /-- Each freeze succeeds at most once, and the one in a package not after the other. -/
  freezes : ((past ++ future).filterMap Event.froze?).Sublist [.packageFrozen, .executableFrozen]
  /-- A freeze that fails changes neither the unit nor any file. -/
  failed : ∀ e ∈ past ++ future, e.call.isFreeze = true → e.answer.isOk = false →
    e.after = e.before

/-- Whatever calls are made on a new unit, at any two moments of its life. -/
theorem lifecycle (named : NamedSource) (generated : Path) (w : Workspace)
    (early late : List Move) :
    let start : Moment := ⟨{ named := named, generated := generated }, w⟩
    let m := finish early start
    Lifecycle (history early start) m (history late m) (finish late m) := by
  intro start m
  have fresh : start.unit.Coherent := coherent_fresh named generated
  have coherent : m.unit.Coherent := finish_coherent early fresh
  have onward : Onward m.unit (finish late m).unit := finish_onward late m
  have given : [] ++ (history early start).flatMap Event.granted = m.unit.given :=
    given_append_history early fresh
  have froze : ((history early start).filterMap Event.froze? ++ m.unit.state.freezesAhead).Sublist
      [.packageFrozen, .executableFrozen] := history_froze_sublist early start
  have turns : ∀ e ∈ history early start ++ history late m, e.Turn := by
    intro e he
    rcases List.mem_append.mp he with he | he
    · exact history_turn he
    · exact history_turn he
  exact {
    forward := onward.rank
    symbol_isSome_iff := by
      rw [← UnitState.isTranspiled_iff, coherent.symbol]
      cases m.unit.state.isTranspiled <;> simp
    symbol_eq := by
      rw [coherent.symbol]
      cases m.unit.state.isTranspiled <;> simp
    granted := given
    settled := by
      intro state
      have transpiled := UnitState.isTranspiled_iff.mpr state
      exact ⟨history_requests_eq_nil late transpiled, onward.settled transpiled⟩
    package_of_frozen := coherent.package
    freezes := by
      rw [List.filterMap_append]
      have later := (List.sublist_append_left _ _).trans (history_froze_sublist late m)
      exact (later.append_left _).trans froze
    failed := fun e he => (turns e he).after_eq_before }

end ScriptUnit

end NativeFreeze
