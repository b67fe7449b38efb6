import NativeFreeze.Proofs.Node.Run

/-!
# Turns

A build makes files in turns: first it writes the files of a turn, then it remembers them. Wherever a
build stops, the files of the turns before are remembered, those of the turn that it stops in may be
written, and those of later turns are not begun. `Action.Takes` says this of an action, and has one rule
for each way to put actions together.
-/

namespace NativeFreeze

open NativeFreeze.Action

variable {α β γ σ τ : Type}

/-! ## Stages as actions -/

theorem Action.ext_result {x y : Action α} (h : ∀ w, x.result w = y.result w) : x = y :=
  funext h

namespace Stage

/-- A stage that starts with a part, as an action that answers the part as well. -/
def toAction (x : Stage σ α) (s : σ) : Action (α × σ) :=
  ExceptT.mk fun w =>
    match x.result s w with
    | (.ok a, s, w) => (.ok (a, s), w)
    | (.error e, _, w) => (.error e, w)

theorem result_toAction (x : Stage σ α) (s : σ) (w : Workspace) :
    (x.toAction s).result w =
      match x.result s w with
      | (.ok a, s, w) => (.ok (a, s), w)
      | (.error e, _, w) => (.error e, w) := rfl

theorem toAction_pure (a : α) (s : σ) : (pure a : Stage σ α).toAction s = pure (a, s) := rfl

theorem toAction_part (s : σ) : (part : Stage σ σ).toAction s = pure (s, s) := rfl

theorem toAction_bind (x : Stage σ α) (f : α → Stage σ β) (s : σ) :
    (x >>= f).toAction s = x.toAction s >>= fun r => (f r.1).toAction r.2 := by
  refine Action.ext_result fun w => ?_
  rw [Action.result_bind, result_toAction, result_toAction, result_bind]
  rcases x.result s w with ⟨e | a, s₁, w₁⟩ <;> rfl

theorem toAction_lift (x : Action α) (s : σ) :
    (liftM x : Stage σ α).toAction s = x >>= fun a => pure (a, s) := by
  refine Action.ext_result fun w => ?_
  rw [Action.result_bind, result_toAction, result_lift]
  rcases x.result w with ⟨e | a, w₁⟩ <;> rfl

theorem toAction_onField (field : σ → τ) (put : τ → σ → σ) (x : Stage τ α) (s : σ) :
    (onField field put x).toAction s =
      x.toAction (field s) >>= fun r => pure (r.1, put r.2 s) := by
  refine Action.ext_result fun w => ?_
  rw [Action.result_bind, result_toAction, result_toAction, result_onField]
  rcases x.result (field s) w with ⟨e | a, inner, w₁⟩ <;> rfl

/-- A stage that is run on what one form of a part holds. -/
theorem toAction_form {x : Stage σ α} {y : Stage τ α} {make : τ → σ} {s : τ}
    (same : ∀ w, x.result (make s) w =
      ((y.result s w).1, make (y.result s w).2.1, (y.result s w).2.2)) :
    x.toAction (make s) = y.toAction s >>= fun r => pure (r.1, make r.2) := by
  refine Action.ext_result fun w => ?_
  rw [Action.result_bind, result_toAction, result_toAction, same]
  rcases y.result s w with ⟨e | a, s₁, w₁⟩ <;> rfl

/-- An action that is done for one form of a part. -/
theorem toAction_task {x : Stage σ β} {y : Action α} {g : α → β} {s : σ}
    (same : ∀ w, x.result s w = ((y.result w).1.map g, s, (y.result w).2)) :
    x.toAction s = y >>= fun a => pure (g a, s) := by
  refine Action.ext_result fun w => ?_
  rw [Action.result_bind, result_toAction, same]
  rcases y.result w with ⟨e | a, w₁⟩ <;> rfl

theorem toAction_each_cons (x : Stage σ α) (s : σ) (parts : List σ) :
    (each x).toAction (s :: parts) = x.toAction s >>= fun r =>
      (each x).toAction parts >>= fun rest => pure (r.1 :: rest.1, r.2 :: rest.2) := by
  refine Action.ext_result fun w => ?_
  rw [Action.result_bind, result_toAction, result_toAction, result_each, eachResult]
  rcases x.result s w with ⟨e | a, s₁, w₁⟩
  · rfl
  · dsimp only
    rw [Action.result_bind, result_toAction, result_each]
    rcases eachResult x parts w₁ with ⟨e | rest, parts₁, w₂⟩ <;> rfl

/-- What a stage maintains, it maintains as an action. -/
theorem Maintains.toAction {P : σ → Prop} {I : Workspace → Prop} {Q : α → Prop} {x : Stage σ α}
    {s : σ} (h : Maintains P I x Q) (hs : P s) :
    Action.Maintains I (x.toAction s) fun r => Q r.1 ∧ P r.2 := by
  intro w hw
  obtain ⟨part, kept, answered⟩ := h s w hs hw
  rw [result_toAction]
  rcases ran : x.result s w with ⟨e | a, s₁, w₁⟩
  · rw [ran] at kept
    exact ⟨kept, nofun⟩
  · rw [ran] at part kept answered
    refine ⟨kept, fun r answer => ?_⟩
    obtain rfl : (a, s₁) = r := Except.ok.inj answer
    exact ⟨answered a rfl, part⟩

end Stage

/-! ## Turns -/

namespace Footprint

/-- A footprint that may also hold some known files, and in which nothing is remembered. -/
def adding (f : Footprint) (known : List Path) : Footprint where
  writes p := p ∈ known ∨ f.writes p
  records _ := False
  strays := f.strays

/-- A workspace that came of one with the files `t` by writing known files and within a footprint, and
that remembers `remembered`. -/
structure Known (f : Footprint) (t : FileTree) (known remembered : List Path) (w : Workspace) :
    Prop where
  within : (f.adding known).Within false t w
  artifacts : w.artifacts = remembered

/-- What a run from a workspace that remembers `remembered` comes to: the turns in `done` are
remembered, and the first one in `rest` may have begun. A run that succeeds has no turn left. -/
structure Took (f : Footprint) (t : FileTree) (turns : List (List Path)) (remembered : List Path)
    (r : Except Failure α × Workspace) (done rest : List (List Path)) : Prop where
  turns_eq : turns = done ++ rest
  known : f.Known t (remembered ++ done.flatten ++ rest.headD []) (remembered ++ done.flatten) r.2
  all : ∀ a, r.1 = .ok a → rest = []

variable {f : Footprint} {t : FileTree} {known known' remembered : List Path} {w : Workspace}

theorem Known.mono (h : f.Known t known remembered w) (more : known ⊆ known') :
    f.Known t known' remembered w where
  within := by
    refine ⟨h.within.files.mono (fun l => Or.imp_left ?_) fun _ => id, nofun⟩
    rintro ⟨p, inside, heads⟩
    exact ⟨p, inside.imp_left (more ·), heads⟩
  artifacts := h.artifacts

theorem Known.adds (h : f.Known t known remembered w) (turn : List Path) :
    f.Known t known (remembered ++ turn) { w with artifacts := w.artifacts ++ turn } where
  within := ⟨h.within.files, nofun⟩
  artifacts := congrArg (· ++ turn) h.artifacts

/-- Orderly tools write known files where they are asked to, and remember nothing. -/
theorem steady_known {c : BuildContext} (orderly : c.Orderly f.strays) :
    c.Steady (f.Known t known remembered) (f.adding known) := by
  have within : c.Steady ((f.adding known).Within false t) (f.adding known) := steady_within orderly
  exact {
    told := fun output log h => ⟨within.told output log h.within, h.artifacts⟩
    made := fun p h => ⟨within.made p h.within, h.artifacts⟩
    written := fun inside wrote h => ⟨within.written inside wrote h.within, h.artifacts⟩
    requested := fun _ _ h => ⟨⟨⟨h.within.files, nofun⟩, h.artifacts⟩, fun _ _ => trivial⟩
    recorded := fun _ inside => inside.elim
    transpiled := fun r inside w h =>
      ⟨⟨(within.transpiled r inside w h.within).1, (orderly.transpiler r w).trans h.artifacts⟩,
        fun _ _ => trivial⟩
    compiled := fun sources options temp inside w h =>
      ⟨⟨(within.compiled sources options temp inside w h.within).1,
        (orderly.toolchain.compile sources options w).trans h.artifacts⟩,
        (within.compiled sources options temp inside w h.within).2⟩
    linked := fun kind objects output options inside w h =>
      ⟨⟨(within.linked kind objects output options inside w h.within).1,
        (orderly.toolchain.link kind objects output options w).trans h.artifacts⟩,
        fun _ _ => trivial⟩
    traced := fun script w h => ⟨within.traced script w h.within, h.artifacts⟩ }

end Footprint

namespace Action

variable {f : Footprint} {t : FileTree} {turn : List Path} {turns more : List (List Path)}
  {x : Action α} {Q : α → Prop} {R : β → Prop}

/-- An action that, where all that was written is remembered, takes some turns. -/
def Takes (f : Footprint) (t : FileTree) (x : Action α) (turns : List (List Path)) (Q : α → Prop) :
    Prop :=
  ∀ remembered w, f.Known t remembered remembered w →
    (∃ done rest, f.Took t turns remembered (x.result w) done rest) ∧
      ∀ a, (x.result w).1 = .ok a → Q a

/-- An action that finishes a turn that may have begun. -/
def Finishes (f : Footprint) (t : FileTree) (x : Action α) (turn : List Path) (Q : α → Prop) :
    Prop :=
  ∀ remembered w, f.Known t (remembered ++ turn) remembered w →
    (∃ done rest, f.Took t [turn] remembered (x.result w) done rest) ∧
      ∀ a, (x.result w).1 = .ok a → Q a

theorem takes_of_finishes (h : Finishes f t x turn Q) : Takes f t x [turn] Q :=
  fun remembered w known => h remembered w (known.mono (List.subset_append_left _ _))

/-- What remembers nothing and writes nothing new takes no turn. -/
theorem takes_nothing (h : ∀ known remembered, Maintains (f.Known t known remembered) x Q) :
    Takes f t x [] Q := by
  intro remembered w known
  obtain ⟨kept, answered⟩ := h remembered remembered w known
  exact ⟨⟨[], [], rfl, by simpa using kept, fun _ _ => rfl⟩, answered⟩

/-- A turn without files needs nothing. -/
theorem Takes.blank (h : Takes f t x [] Q) : Takes f t x [[]] Q := by
  intro remembered w known
  obtain ⟨⟨done, rest, turns, kept, all⟩, answered⟩ := h remembered w known
  obtain ⟨rfl, rfl⟩ := List.nil_eq_append_iff.mp turns
  exact ⟨⟨[[]], [], rfl, kept, fun _ _ => rfl⟩, answered⟩

/-- What fails at once leaves all turns. -/
theorem takes_throw (e : Failure) : Takes f t (throw e : Action α) turns Q := by
  intro remembered w known
  refine ⟨⟨[], turns, rfl, ?_, nofun⟩, nofun⟩
  rw [List.flatten_nil, List.append_nil]
  exact known.mono (List.subset_append_left _ _)

theorem takes_bind {g : α → Action β} (hx : Takes f t x turns Q)
    (hg : ∀ a, Q a → Takes f t (g a) more R) : Takes f t (x >>= g) (turns ++ more) R := by
  intro remembered w known
  obtain ⟨⟨done, rest, turns_eq, kept, all⟩, answered⟩ := hx remembered w known
  subst turns_eq
  rw [result_bind]
  rcases ran : x.result w with ⟨e | a, w₁⟩
  · rw [ran] at kept
    refine ⟨⟨done, rest ++ more, List.append_assoc _ _ _, kept.mono ?_, nofun⟩, nofun⟩
    -- Where `x` fails behind its last turn, nothing of the first one of `more` is there yet.
    cases rest with
    | nil =>
      rw [List.headD_nil, List.append_nil]
      exact List.subset_append_left _ _
    | cons turn rest => exact List.Subset.refl _
  · rw [ran] at kept all answered
    obtain rfl := all a rfl
    rw [List.headD_nil, List.append_nil] at kept
    obtain ⟨⟨done', rest', turns_eq', kept', all'⟩, answered'⟩ :=
      hg a (answered a rfl) _ w₁ kept
    refine ⟨⟨done ++ done', rest', ?_, ?_, all'⟩, answered'⟩
    · rw [turns_eq', List.append_nil, List.append_assoc]
    · rwa [List.flatten_append, ← List.append_assoc]

theorem takes_bind_nothing {g : α → Action β} (hx : Takes f t x [] Q)
    (hg : ∀ a, Q a → Takes f t (g a) turns R) : Takes f t (x >>= g) turns R :=
  takes_bind hx hg

theorem takes_map {g : α → β} (hx : Takes f t x turns Q) (answers : ∀ a, Q a → R (g a)) :
    Takes f t (x >>= fun a => pure (g a)) turns R := by
  rw [← List.append_nil turns]
  exact takes_bind hx fun a q => takes_nothing fun _ _ => maintains_pure (answers a q)

theorem takes_pure {a : α} (q : Q a) : Takes f t (pure a : Action α) [] Q :=
  takes_nothing fun _ _ => maintains_pure q

theorem finishes_bind {g : α → Action β}
    (hx : ∀ known remembered, turn ⊆ known → Maintains (f.Known t known remembered) x Q)
    (hg : ∀ a, Q a → Finishes f t (g a) turn R) : Finishes f t (x >>= g) turn R := by
  intro remembered w known
  obtain ⟨kept, answered⟩ := hx _ _ (List.subset_append_right remembered turn) w known
  rw [result_bind]
  rcases ran : x.result w with ⟨e | a, w₁⟩
  · -- What was written of the turn stays unremembered.
    rw [ran] at kept
    refine ⟨⟨[], [turn], rfl, ?_, nofun⟩, nofun⟩
    rwa [List.flatten_nil, List.append_nil]
  · rw [ran] at kept answered
    exact hg a (answered a rfl) remembered w₁ kept

/-- A turn is finished when its files are remembered. -/
theorem finishes_record {g : Unit → Action β} {y : Action Unit}
    (records : ∀ w, y.result w = (.ok (), { w with artifacts := w.artifacts ++ turn }))
    (hg : Takes f t (g ()) [] R) : Finishes f t (y >>= g) turn R := by
  intro remembered w known
  rw [result_bind, records]
  obtain ⟨⟨done, rest, turns, kept, all⟩, answered⟩ := hg _ _ (known.adds turn)
  obtain ⟨rfl, rfl⟩ := List.nil_eq_append_iff.mp turns
  refine ⟨⟨[turn], [], rfl, ?_, fun _ _ => rfl⟩, answered⟩
  simpa using kept

/-- The parts of a list take their turns one after the other. -/
theorem takes_each {stage : Stage σ α} {turn : σ → List Path} {due : σ → γ} {view : α → γ}
    {parts : List σ}
    (h : ∀ s ∈ parts, Takes f t (stage.toAction s) [turn s] fun r => view r.1 = due s) :
    Takes f t ((Stage.each stage).toAction parts) (parts.map turn) fun r =>
      r.1.map view = parts.map due := by
  induction parts with
  | nil => exact takes_pure rfl
  | cons s parts ih =>
    obtain ⟨first, others⟩ := List.forall_mem_cons.mp h
    rw [Stage.toAction_each_cons]
    refine takes_bind first fun r here => takes_map (ih others) fun rest there => ?_
    rw [List.map_cons, List.map_cons, here, there]

end Action

end NativeFreeze
