import NativeFreeze.Proofs.Workspace

/-!
# Invariants of actions

`Action.Maintains` says that an invariant of the workspace outlives an action, however the action
ends, and what is known of the answer if there is one. `Stage.Maintains` says the same of stages, with
an invariant of the part and the workspace. Each way to put actions together has one rule.
-/

namespace NativeFreeze

variable {α β γ : Type} {I : Workspace → Prop}

namespace Action

/-- From a workspace with `I` an action leads to one with `I`, be it by failing, and what it answers
has `Q`. -/
def Maintains (I : Workspace → Prop) (x : Action α) (Q : α → Prop) : Prop :=
  ∀ w, I w → I (x.result w).2 ∧ ∀ a, (x.result w).1 = .ok a → Q a

/-- An action that maintains an invariant, whatever it answers. -/
abbrev Preserves (I : Workspace → Prop) (x : Action α) : Prop :=
  Maintains I x fun _ => True

variable {x : Action α} {Q Q' : α → Prop} {R : β → Prop}

theorem Maintains.imp (h : Maintains I x Q) (weaker : ∀ a, Q a → Q' a) : Maintains I x Q' :=
  fun w hw => ⟨(h w hw).1, fun a answer => weaker a ((h w hw).2 a answer)⟩

theorem Maintains.preserves (h : Maintains I x Q) : Preserves I x :=
  h.imp fun _ _ => trivial

theorem maintains_pure {a : α} (q : Q a) : Maintains I (pure a : Action α) Q := by
  intro w hw
  refine ⟨hw, fun b answer => ?_⟩
  obtain rfl : a = b := Except.ok.inj answer
  exact q

theorem maintains_throw (e : Failure) : Maintains I (throw e : Action α) Q :=
  fun _ hw => ⟨hw, nofun⟩

theorem maintains_modify {f : Workspace → Workspace} (h : ∀ w, I w → I (f w)) :
    Preserves I (modify f : Action Unit) :=
  fun w hw => ⟨h w hw, fun _ _ => trivial⟩

theorem maintains_bind {f : α → Action β} (hx : Maintains I x Q)
    (hf : ∀ a, Q a → Maintains I (f a) R) : Maintains I (x >>= f) R := by
  intro w hw
  obtain ⟨kept, answered⟩ := hx w hw
  rw [result_bind]
  rcases h : x.result w with ⟨e | a, w₁⟩
  · rw [h] at kept
    exact ⟨kept, nofun⟩
  · rw [h] at kept answered
    exact hf a (answered a rfl) w₁ kept

theorem maintains_ofExcept {x : Except Failure α} (q : ∀ a, x = .ok a → Q a) :
    Maintains I (ofExcept x) Q := by
  intro w hw
  rw [result_ofExcept]
  exact ⟨hw, q⟩

theorem maintains_ask {during : Option Activity} {operation : FileTree → Except FileError α}
    (q : ∀ t a, operation t = .ok a → Q a) : Maintains I (ask during operation) Q := by
  intro w hw
  rw [result_ask]
  cases answer : operation w.files with
  | error e => exact ⟨hw, nofun⟩
  | ok a => exact ⟨hw, fun b hb => Except.ok.inj hb ▸ q _ _ answer⟩

theorem preserves_files : Preserves I files :=
  fun _ hw => ⟨hw, fun _ _ => trivial⟩

theorem maintains_mapM {f : α → Action β} {as : List α}
    (hf : ∀ a ∈ as, Maintains I (f a) R) : Maintains I (as.mapM f) fun bs => ∀ b ∈ bs, R b := by
  induction as with
  | nil => exact maintains_pure nofun
  | cons a as ih =>
    rw [List.mapM_cons]
    refine maintains_bind (hf a List.mem_cons_self) fun b hb => ?_
    refine maintains_bind (ih fun a ha => hf a (List.mem_cons_of_mem _ ha)) fun bs hbs => ?_
    exact maintains_pure (List.forall_mem_cons.mpr ⟨hb, hbs⟩)

theorem preserves_forM {f : α → Action Unit} {as : List α}
    (hf : ∀ a ∈ as, Preserves I (f a)) : Preserves I (as.forM f) := by
  induction as with
  | nil => exact maintains_pure trivial
  | cons a as ih =>
    exact maintains_bind (hf a List.mem_cons_self) fun _ _ =>
      ih fun a ha => hf a (List.mem_cons_of_mem _ ha)

theorem preserves_forIn {f : α → Action Unit} (hf : ∀ a, Preserves I (f a)) (as : List α) :
    Preserves I (forIn as PUnit.unit fun a _ => do
      f a
      return ForInStep.yield PUnit.unit) := by
  induction as with
  | nil => exact maintains_pure trivial
  | cons a as ih =>
    rw [List.forIn_cons, bind_assoc]
    exact maintains_bind (hf a) fun _ _ => ih

theorem preserves_filterMapM {f : α → Action (Option β)} {as : List α}
    (hf : ∀ a ∈ as, Preserves I (f a)) : Preserves I (as.filterMapM f) := by
  induction as with
  | nil => exact maintains_pure trivial
  | cons a as ih =>
    rw [List.filterMapM_cons]
    have rest := ih fun a ha => hf a (List.mem_cons_of_mem _ ha)
    refine maintains_bind (hf a List.mem_cons_self) fun b _ => ?_
    cases b with
    | none => exact rest
    | some b => exact maintains_bind rest fun _ _ => maintains_pure trivial

/-- An action leaves a view alone if it preserves each of its values. -/
theorem keeps_of_preserves {view : Workspace → γ} (h : ∀ v, Preserves (fun w => view w = v) x) :
    Keeps view x :=
  fun w => (h (view w) w rfl).1

theorem Keeps.preserves {view : Workspace → γ} (h : Keeps view x) (v : γ) :
    Preserves (fun w => view w = v) x :=
  fun w hw => ⟨(h w).trans hw, fun _ _ => trivial⟩

end Action

namespace Stage

variable {σ τ : Type} {P : σ → Prop} {Q : α → Prop} {R : β → Prop}

/-- From a part with `P` and a workspace with `I` a stage leads to such, be it by failing, and what it
answers has `Q`. -/
def Maintains (P : σ → Prop) (I : Workspace → Prop) (x : Stage σ α) (Q : α → Prop) : Prop :=
  ∀ s w, P s → I w → P (x.result s w).2.1 ∧ I (x.result s w).2.2 ∧
    ∀ a, (x.result s w).1 = .ok a → Q a

/-- A stage that maintains an invariant, whatever it answers. -/
abbrev Preserves (P : σ → Prop) (I : Workspace → Prop) (x : Stage σ α) : Prop :=
  Maintains P I x fun _ => True

theorem maintains_pure {a : α} (q : Q a) : Maintains P I (pure a : Stage σ α) Q := by
  intro s w hs hw
  refine ⟨hs, hw, fun b answer => ?_⟩
  obtain rfl : a = b := Except.ok.inj answer
  exact q

theorem maintains_bind {x : Stage σ α} {f : α → Stage σ β} (hx : Maintains P I x Q)
    (hf : ∀ a, Q a → Maintains P I (f a) R) : Maintains P I (x >>= f) R := by
  intro s w hs hw
  obtain ⟨part, kept, answered⟩ := hx s w hs hw
  rw [result_bind]
  rcases h : x.result s w with ⟨e | a, s₁, w₁⟩
  · rw [h] at part kept
    exact ⟨part, kept, nofun⟩
  · rw [h] at part kept answered
    exact hf a (answered a rfl) s₁ w₁ part kept

theorem maintains_part : Maintains P I (part : Stage σ σ) P :=
  fun _ _ hs hw => ⟨hs, hw, fun _ answer => Except.ok.inj answer ▸ hs⟩

theorem maintains_update {f : σ → σ} (h : ∀ s, P s → P (f s)) : Preserves P I (update f) :=
  fun s _ hs hw => ⟨h s hs, hw, fun _ _ => trivial⟩

theorem maintains_lift {x : Action α} (hx : Action.Maintains I x Q) :
    Maintains P I (liftM x : Stage σ α) Q := by
  intro s w hs hw
  rw [result_lift]
  exact ⟨hs, hx w hw⟩

theorem maintains_onField {P' : τ → Prop} {field : σ → τ} {put : τ → σ → σ} {stage : Stage τ α}
    (enter : ∀ s, P s → P' (field s)) (leave : ∀ s inner, P s → P' inner → P (put inner s))
    (h : Maintains P' I stage Q) : Maintains P I (onField field put stage) Q := by
  intro s w hs hw
  rw [result_onField]
  obtain ⟨part, kept⟩ := h (field s) w (enter s hs) hw
  exact ⟨leave s _ hs part, kept⟩

/-- What each part's stage maintains, the run over all parts maintains. -/
theorem maintains_each {stage : Stage σ α} (h : Maintains P I stage Q) :
    Maintains (fun parts => ∀ s ∈ parts, P s) I (each stage) fun answers => ∀ a ∈ answers, Q a := by
  intro parts w hs hw
  rw [result_each]
  induction parts generalizing w with
  | nil =>
    refine ⟨nofun, hw, fun answers answer => ?_⟩
    obtain rfl : [] = answers := Except.ok.inj answer
    exact nofun
  | cons s parts ih =>
    obtain ⟨first, others⟩ := List.forall_mem_cons.mp hs
    obtain ⟨part, kept, answered⟩ := h s w first hw
    rw [eachResult]
    rcases hx : stage.result s w with ⟨e | a, s', w₁⟩
    · rw [hx] at part kept
      refine ⟨List.forall_mem_cons.mpr ⟨part, others⟩, kept, fun answers answer => ?_⟩
      simp at answer
    · rw [hx] at part kept answered
      obtain ⟨parts', kept', answered'⟩ := ih w₁ others kept
      refine ⟨List.forall_mem_cons.mpr ⟨part, parts'⟩, kept', fun answers answer => ?_⟩
      dsimp only at answer
      cases hr : (eachResult stage parts w₁).1 with
      | error e => simp [hr, Except.map] at answer
      | ok rest =>
        rw [hr, Except.map] at answer
        obtain rfl : a :: rest = answers := Except.ok.inj answer
        exact List.forall_mem_cons.mpr ⟨answered a rfl, answered' rest hr⟩

end Stage

end NativeFreeze
