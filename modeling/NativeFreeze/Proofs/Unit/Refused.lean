import NativeFreeze.Proofs.Generated.Identity
import NativeFreeze.Proofs.Node.Sample

/-!
# Refused transpiles

A transpile puts the package flag that it is given in the place of the unit's own before it asks the
tool, so the flag stays when the tool fails. From then on a transpile that gives no flag asks for the
source under another name, and a freeze in a package is granted or refused by a flag that no granted
transpile ever had. Only a transpile that gives a flag itself removes the trace.
-/

namespace NativeFreeze

namespace ScriptUnit

variable {u v : ScriptUnit} {w w' : Workspace}

/-- A unit with another package flag. -/
def flagged (u : ScriptUnit) (package : Bool) : ScriptUnit :=
  { u with package := package }

theorem flagged_eq_self_iff {package : Bool} : u.flagged package = u ↔ package = u.package := by
  constructor
  · intro same
    exact congrArg ScriptUnit.package same
  · rintro rfl
    rfl

/-! ## What a unit does before it is transpiled -/

/-- A transpile that fails leaves the unit with the flag that it asked for. -/
theorem transpile_eq_error {tool : Transpiler} {package : Option Bool} {e : Failure}
    (created : u.state = .created)
    (failed : (transpile tool package).result u w = (.error e, v, w')) :
    v = u.flagged (package.getD u.package) := by
  rw [transpile_first (by rw [created]; rfl)] at failed
  split at failed
  · exact nomatch congrArg Prod.fst failed
  · exact (congrArg (·.2.1) failed).symm

/-- A transpile that gives a flag does not look at the unit's own. -/
theorem transpile_flagged (created : u.state = .created) (tool : Transpiler) (given own : Bool)
    (w : Workspace) :
    (transpile tool (some given)).result (u.flagged own) w =
      (transpile tool (some given)).result u w := by
  have fresh : u.state.isTranspiled = false := by rw [created]; rfl
  rw [transpile_first fresh, transpile_first (show (u.flagged own).state.isTranspiled = false from fresh)]
  rfl

/-- Any other call answers and leaves all as it is, whatever the flag. -/
theorem Call.idle_of_created (created : u.state = .created) (call : Call)
    (other : ∀ tool keeps package, call ≠ .transpile tool keeps package) :
    ∃ answer, ∀ own w, call.stage.result (u.flagged own) w = (answer, u.flagged own, w) := by
  cases call with
  | transpile tool keeps package => exact absurd rfl (other tool keeps package)
  | registered =>
    refine ⟨u.registered.map fun _ => (), fun own w => ?_⟩
    simp only [stage, Stage.result_bind, Stage.result_part, Stage.result_lift,
      Action.result_ofExcept]
    rfl
  | freezePackage contract =>
    refine ⟨.error ⟨.notTranspiled u.inputPath, none⟩, fun own w => ?_⟩
    simp [stage, ScriptUnit.freezePackage, Stage.result_bind, checkFreezePackage, flagged, created,
      inputPath]
  | freezeExecutable modules standalone runtimeDir =>
    refine ⟨.error ⟨.notTranspiled u.inputPath, none⟩, fun own w => ?_⟩
    simp [stage, ScriptUnit.freezeExecutable, Stage.result_bind, checkFreezeExecutable, flagged,
      created, inputPath]

/-! ## What is seen of a unit -/

/-- What is seen of a call: its answer, the workspace that it leaves, with the requests and the files
in it, and how the unit registers from then on. -/
def Event.seen (e : Event) : Except Failure Unit × Workspace × Except Failure RegisteredModule :=
  (e.answer, e.after.workspace, e.after.unit.registered)

/-- Nothing tells two units apart when the same moves are made on them. -/
def Alike (u v : ScriptUnit) (w : Workspace) (moves : List Move) : Prop :=
  (history moves ⟨u, w⟩).map Event.seen = (history moves ⟨v, w⟩).map Event.seen

/-- The first transpile among some moves, if there is one, gives a package flag. -/
def givesFlag : List Move → Bool
  | [] => true
  | move :: moves =>
    match move.call with
    | .transpile _ _ package => package.isSome
    | _ => givesFlag moves

/-- The flag of a unit that is yet to be transpiled does not show if the next transpile gives one, and
is gone with that. -/
theorem alike_flagged (created : u.state = .created) (own : Bool) {moves : List Move}
    (gives : givesFlag moves = true) (w : Workspace) :
    Alike (u.flagged own) u w moves ∧ ((finish moves ⟨u, w⟩).unit.state ≠ .created →
      finish moves ⟨u.flagged own, w⟩ = finish moves ⟨u, w⟩) := by
  induction moves generalizing w with
  | nil => exact ⟨rfl, fun transpiled => absurd created transpiled⟩
  | cons move moves ih =>
    obtain ⟨outside, call⟩ := move
    let ready : Workspace := { w with files := outside w.files }
    by_cases transpiles : ∃ tool keeps package, call = .transpile tool keeps package
    · obtain ⟨tool, keeps, package, rfl⟩ := transpiles
      obtain ⟨given, rfl⟩ := Option.isSome_iff_exists.mp gives
      -- From here on the two units are one.
      have same : (transpile tool (some given)).result (u.flagged own) ready =
          (transpile tool (some given)).result u ready := transpile_flagged created tool given own ready
      simp only [Alike, history, finish, Move.event, Call.event, Call.stage, List.map_cons]
      rw [same]
      exact ⟨rfl, fun _ => rfl⟩
    · have other : ∀ tool keeps package, call ≠ .transpile tool keeps package :=
        fun tool keeps package is => transpiles ⟨tool, keeps, package, is⟩
      have later : givesFlag moves = true := by
        cases call with
        | transpile tool keeps package => exact absurd rfl (other tool keeps package)
        | registered | freezePackage | freezeExecutable => exact gives
      obtain ⟨answer, idle⟩ := call.idle_of_created created other
      have mine : Move.event ⟨outside, call⟩ ⟨u.flagged own, w⟩ =
          ⟨call, ⟨u.flagged own, ready⟩, answer, ⟨u.flagged own, ready⟩⟩ :=
        Call.event_eq (idle own ready)
      have plain : Move.event ⟨outside, call⟩ ⟨u, w⟩ = ⟨call, ⟨u, ready⟩, answer, ⟨u, ready⟩⟩ :=
        Call.event_eq (idle u.package ready)
      rw [Alike, history, history, finish, finish, mine, plain]
      obtain ⟨alike, settled⟩ := ih later ready
      exact ⟨congrArg (_ :: ·) alike, settled⟩

/-! ## Moves that tell the flag -/

/-- A transpiled unit is refused as one outside a package exactly if it is flagged so. -/
theorem freezePackage_refuses_iff (transpiled : u.state = .transpiled) (contract : SourceContract)
    (w : Workspace) :
    ((freezePackage contract).result u w).1 = .error ⟨.notPackageBuild u.inputPath, none⟩ ↔
      u.package = false := by
  cases package : u.package with
  | false => simp [freezePackage, Stage.result_bind, checkFreezePackage, transpiled, package]
  | true =>
    have passed : u.checkFreezePackage = .ok () := by
      simp [checkFreezePackage, transpiled, package]
    simp only [freezePackage, Stage.result_bind, Stage.result_part, Stage.result_lift,
      Action.result_ofExcept, passed]
    cases u.identity? with
    | none => simp
    | some identity =>
      simp only [Stage.result_bind, Stage.result_lift, readGenerated, writeGenerated,
        Action.result_ask, Action.result_ofExcept, Action.result_change]
      cases w.files.readText u.generated with
      | error e => simp
      | ok code =>
        dsimp only
        cases frozen : identity.freeze contract code u.generated with
        | error e =>
          rcases PackageIdentity.freeze_eq_error frozen with rfl | ⟨marker, rfl⟩
          · simp
          · simp
        | ok out =>
          dsimp only
          cases w.files.write u.generated (.plain out.bytes) with
          | error e => simp
          | ok t => simp

/-- A transpiler that writes nothing and never fails. -/
def idleTool : Transpiler where
  contract := .cython
  run _ := pure ()

theorem idleTool_keepsRequests : idleTool.KeepsRequests := fun _ _ => rfl

/-- A transpile that gives no flag, and a freeze in a package. -/
def probe : List Move :=
  [⟨id, .transpile idleTool idleTool_keepsRequests none⟩, ⟨id, .freezePackage .cython⟩]

/-- The probe ends in this refusal exactly for a unit that is flagged so. -/
theorem probe_refuses_iff (created : u.state = .created) (w : Workspace) :
    ((history probe ⟨u, w⟩).map Event.seen).getLast?.map Prod.fst =
      some (.error ⟨.notPackageBuild u.inputPath, none⟩) ↔ u.package = false := by
  let asked : Workspace := { w with requests := w.requests ++ [.transpile (u.request u.package)] }
  have first : (transpile idleTool none).result u w =
      (.ok (), u.transpiledAs u.package, asked) := by
    rw [transpile_first (by rw [created]; rfl)]
    rfl
  have second : ((freezePackage .cython).result (u.transpiledAs u.package) asked).1 =
      .error ⟨.notPackageBuild u.inputPath, none⟩ ↔ u.package = false :=
    freezePackage_refuses_iff rfl .cython asked
  simpa [probe, history, Move.event, Call.event, Call.stage, Event.seen, first, asked] using second

/-- Units that differ in the flag are told apart by the probe. -/
theorem package_eq_of_alike {own : Bool} (created : u.state = .created)
    (alike : Alike (u.flagged own) u w probe) : own = u.package := by
  have mine : _ ↔ own = false := probe_refuses_iff (u := u.flagged own) created w
  rw [alike] at mine
  have both : u.package = false ↔ own = false := (probe_refuses_iff created w).symm.trans mine
  cases own <;> cases package : u.package <;> simp_all

/-! ## What a refusal leaves -/

/-- A transpile that fails leaves the flag that it asked for, so the unit is what it was exactly if
that is its own. This decides whether the unit goes on as if the call had not been made. Whatever the
flag, nothing is seen of it under moves in which the next transpile gives a flag. -/
theorem transpile_traceless_iff {tool : Transpiler} {package : Option Bool} {e : Failure}
    (created : u.state = .created)
    (failed : (transpile tool package).result u w = (.error e, v, w')) :
    v = u.flagged (package.getD u.package) ∧ (v = u ↔ ∀ given ∈ package, given = u.package) ∧
      ((∀ moves, Alike v u w' moves) ↔ v = u) ∧
      ∀ moves, givesFlag moves = true → Alike v u w' moves ∧
        ((finish moves ⟨u, w'⟩).unit.state ≠ .created →
          finish moves ⟨v, w'⟩ = finish moves ⟨u, w'⟩) := by
  obtain rfl := transpile_eq_error created failed
  refine ⟨rfl, ?_, ?_, fun moves gives => alike_flagged created _ gives w'⟩
  · rw [flagged_eq_self_iff]
    cases package <;> simp
  · rw [flagged_eq_self_iff]
    constructor
    · intro alike
      exact package_eq_of_alike created (alike probe)
    · intro same moves
      rw [same]
      rfl

/-- A script in a folder. -/
def Sample.nested : ScriptUnit :=
  NativeFreeze.Sample.script "a/b.py".toList

/-- A transpiler that always fails. -/
def Sample.failing : Transpiler where
  contract := .cython
  run _ := Action.fail (.refused "no tool".toList)

/-- What is on record when the unit was refused as one of a package. -/
def Sample.asked : Workspace where
  requests := [.transpile ⟨⟨"a/b.py".toList⟩, ⟨"a/b.cpp".toList⟩, "a_b".toList⟩]

theorem transpile_traceless_iff_nested :
    Sample.nested.state = .created ∧
      (transpile Sample.failing (some true)).result Sample.nested {} =
        (.error ⟨.refused "no tool".toList, none⟩, Sample.nested.flagged true, Sample.asked) ∧
      ¬ ∀ moves, Alike (Sample.nested.flagged true) Sample.nested Sample.asked moves := by
  have failed : (transpile Sample.failing (some true)).result Sample.nested {} =
      (.error ⟨.refused "no tool".toList, none⟩, Sample.nested.flagged true, Sample.asked) := rfl
  obtain ⟨-, same, alike, -⟩ := transpile_traceless_iff rfl failed
  refine ⟨rfl, failed, ?_⟩
  rw [alike, same]
  intro own
  exact absurd (own true rfl) (by decide)

/-- A transpile without a flag asks for the refused unit as `a_b`, and for the unit as it was as `b`. -/
theorem not_traceless_nested :
    (transpile Sample.failing (some true)).result Sample.nested {} =
        (.error ⟨.refused "no tool".toList, none⟩, Sample.nested.flagged true, Sample.asked) ∧
      Sample.nested.flagged true ≠ Sample.nested ∧
      ¬ Alike (Sample.nested.flagged true) Sample.nested Sample.asked
        [⟨id, .transpile idleTool idleTool_keepsRequests none⟩] := by
  refine ⟨rfl, by decide +kernel, ?_⟩
  intro alike
  have requests := congrArg (List.map fun seen => seen.2.1.requests) alike
  exact absurd requests (by decide +kernel)

end ScriptUnit

end NativeFreeze
