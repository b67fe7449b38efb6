import NativeFreeze.Workspace

/-!
# How actions and stages run

One equation for each operation says what it answers and leaves. A successful sequence is taken
apart at its first action, and `Action.Keeps` says that an action leaves one view of the workspace
alone, however it ends.
-/

namespace NativeFreeze

variable {α β γ : Type}

namespace Action

@[simp]
theorem result_pure (a : α) (w : Workspace) : (pure a : Action α).result w = (.ok a, w) := rfl

@[simp]
theorem result_throw (e : Failure) (w : Workspace) :
    (throw e : Action α).result w = (.error e, w) := rfl

@[simp]
theorem result_fail (cause : Cause) (during : Option Activity) (w : Workspace) :
    (fail cause during : Action α).result w = (.error ⟨cause, during⟩, w) := rfl

@[simp]
theorem result_get (w : Workspace) : (get : Action Workspace).result w = (.ok w, w) := rfl

@[simp]
theorem result_files (w : Workspace) : files.result w = (.ok w.files, w) := rfl

@[simp]
theorem result_modify (f : Workspace → Workspace) (w : Workspace) :
    (modify f : Action Unit).result w = (.ok (), f w) := rfl

@[simp]
theorem result_note (level : Log.Level) (topic : Log.Topic) (message : Text) (w : Workspace) :
    (note level topic message).result w =
      (.ok (), { w with log := w.log ++ [⟨level, topic, message⟩] }) := rfl

@[simp]
theorem result_request (r : Request) (w : Workspace) :
    (request r).result w = (.ok (), { w with requests := w.requests ++ [r] }) := rfl

@[simp]
theorem result_record (p : Path) (w : Workspace) :
    (record p).result w = (.ok (), { w with artifacts := w.artifacts ++ [p] }) := rfl

@[simp]
theorem result_ofExcept (x : Except Failure α) (w : Workspace) : (ofExcept x).result w = (x, w) := by
  cases x <;> rfl

theorem result_bind (x : Action α) (f : α → Action β) (w : Workspace) :
    (x >>= f).result w =
      match x.result w with
      | (.ok a, w) => (f a).result w
      | (.error e, w) => (.error e, w) := by
  rcases h : x.result w with ⟨answer, w₁⟩
  have hb : (x >>= f).result w = result (ExceptT.mk (ExceptT.bindCont f answer)) w₁ :=
    congrArg (fun r : Except Failure α × Workspace =>
      result (ExceptT.mk (ExceptT.bindCont f r.1)) r.2) h
  rw [hb]
  cases answer <;> rfl

theorem result_ask (during : Option Activity) (operation : FileTree → Except FileError α)
    (w : Workspace) :
    (ask during operation).result w =
      match operation w.files with
      | .ok a => (.ok a, w)
      | .error e => (.error ⟨.file e, during⟩, w) := by
  simp only [ask, result_bind, result_files]
  cases operation w.files <;> rfl

/-- A change either is refused and leaves the workspace alone, or replaces the file tree. -/
theorem result_change (during : Option Activity) (operation : FileTree → Except FileError FileTree)
    (w : Workspace) :
    (change during operation).result w =
      match operation w.files with
      | .ok t => (.ok (), { w with files := t })
      | .error e => (.error ⟨.file e, during⟩, w) := by
  simp only [change, result_bind, result_ask]
  cases operation w.files <;> rfl

theorem files_of_change {during : Option Activity}
    {operation : FileTree → Except FileError FileTree} {w w' : Workspace}
    (h : (change during operation).result w = (.ok (), w')) : operation w.files = .ok w'.files := by
  rw [result_change] at h
  cases done : operation w.files with
  | error e => simp [done] at h
  | ok t =>
    simp only [done, Prod.mk.injEq] at h
    exact h.2 ▸ rfl

theorem result_eq_of_ok {x : Action α} {w : Workspace} {a : α} (h : (x.result w).1 = .ok a) :
    x.result w = (.ok a, (x.result w).2) := by
  rw [← h]

/-- A sequence that succeeds passes through a success of its first action. -/
theorem bind_eq_ok {x : Action α} {f : α → Action β} {w w' : Workspace} {b : β}
    (h : (x >>= f).result w = (.ok b, w')) :
    ∃ a w₁, x.result w = (.ok a, w₁) ∧ (f a).result w₁ = (.ok b, w') := by
  rw [result_bind] at h
  rcases hx : x.result w with ⟨e | a, w₁⟩
  · simp [hx] at h
  · exact ⟨a, w₁, rfl, by simpa [hx] using h⟩

/-- Paths that are recorded one after the other stand behind the artifacts in this order. -/
theorem result_forM_record (ps : List Path) (w : Workspace) :
    (ps.forM record).result w = (.ok (), { w with artifacts := w.artifacts ++ ps }) := by
  induction ps generalizing w with
  | nil => rw [List.append_nil]; rfl
  | cons p ps ih =>
    rw [List.forM, result_bind, result_record]
    dsimp only
    rw [ih, List.append_assoc]
    rfl

/-- An action leaves a view of the workspace alone, whether it succeeds or fails. -/
def Keeps (view : Workspace → γ) (x : Action α) : Prop :=
  ∀ w, view (x.result w).2 = view w

section Keeps
variable {view : Workspace → γ}

theorem keeps_pure (a : α) : Keeps view (pure a : Action α) := fun _ => rfl

theorem keeps_bind {x : Action α} {f : α → Action β} (hx : Keeps view x)
    (hf : ∀ a, Keeps view (f a)) : Keeps view (x >>= f) := by
  intro w
  have h₁ := hx w
  rw [result_bind]
  rcases h : x.result w with ⟨e | a, w₁⟩
  · rw [h] at h₁
    exact h₁
  · rw [h] at h₁
    exact (hf a w₁).trans h₁

end Keeps

end Action

namespace Stage

variable {σ τ : Type}

@[simp]
theorem result_ofResult (f : σ → Workspace → Except Failure α × σ × Workspace) (s : σ)
    (w : Workspace) : (ofResult f).result s w = f s w := rfl

@[simp]
theorem result_pure (a : α) (s : σ) (w : Workspace) :
    (pure a : Stage σ α).result s w = (.ok a, s, w) := rfl

@[simp]
theorem result_part (s : σ) (w : Workspace) : (part : Stage σ σ).result s w = (.ok s, s, w) := rfl

@[simp]
theorem result_update (f : σ → σ) (s : σ) (w : Workspace) :
    (update f).result s w = (.ok (), f s, w) := rfl

@[simp]
theorem result_lift (x : Action α) (s : σ) (w : Workspace) :
    (liftM x : Stage σ α).result s w = ((x.result w).1, s, (x.result w).2) := rfl

theorem result_bind (x : Stage σ α) (f : α → Stage σ β) (s : σ) (w : Workspace) :
    (x >>= f).result s w =
      match x.result s w with
      | (.ok a, s, w) => (f a).result s w
      | (.error e, s, w) => (.error e, s, w) := by
  rcases h : (x.run.run s).run w with ⟨⟨answer, s₁⟩, w₁⟩
  have hx : x.result s w = (answer, s₁, w₁) := by rw [result, h]
  have hb : (x >>= f).result s w = result (ExceptT.mk (ExceptT.bindCont f answer)) s₁ w₁ :=
    congrArg (fun r : (Except Failure α × σ) × Workspace =>
      result (ExceptT.mk (ExceptT.bindCont f r.1.1)) r.1.2 r.2) h
  rw [hb, hx]
  cases answer <;> rfl

theorem result_eq_of_ok {x : Stage σ α} {s : σ} {w : Workspace} {a : α}
    (h : (x.result s w).1 = .ok a) :
    x.result s w = (.ok a, (x.result s w).2.1, (x.result s w).2.2) := by
  rw [← h]

/-- A sequence that succeeds passes through a success of its first stage. -/
theorem bind_eq_ok {x : Stage σ α} {f : α → Stage σ β} {s s' : σ} {w w' : Workspace} {b : β}
    (h : (x >>= f).result s w = (.ok b, s', w')) :
    ∃ a s₁ w₁, x.result s w = (.ok a, s₁, w₁) ∧ (f a).result s₁ w₁ = (.ok b, s', w') := by
  rw [result_bind] at h
  rcases hx : x.result s w with ⟨e | a, s₁, w₁⟩
  · simp [hx] at h
  · exact ⟨a, s₁, w₁, rfl, by simpa [hx] using h⟩

@[simp]
theorem result_onField (field : σ → τ) (put : τ → σ → σ) (stage : Stage τ α) (s : σ)
    (w : Workspace) :
    (onField field put stage).result s w =
      ((stage.result (field s) w).1, put (stage.result (field s) w).2.1 s,
        (stage.result (field s) w).2.2) := rfl

/-- A stage on a field succeeds with the part around the field kept. -/
theorem onField_eq_ok {field : σ → τ} {put : τ → σ → σ} {stage : Stage τ α} {s s' : σ}
    {w w' : Workspace} {a : α} (h : (onField field put stage).result s w = (.ok a, s', w')) :
    ∃ inner, stage.result (field s) w = (.ok a, inner, w') ∧ s' = put inner s := by
  rcases hr : stage.result (field s) w with ⟨answer, inner, w₁⟩
  simp only [result_onField, hr, Prod.mk.injEq] at h
  obtain ⟨rfl, rfl, rfl⟩ := h
  exact ⟨inner, rfl, rfl⟩

/-- An action that succeeds as a stage succeeds, and leaves the part alone. -/
theorem lift_eq_ok {x : Action α} {s s' : σ} {w w' : Workspace} {a : α}
    (h : (liftM x : Stage σ α).result s w = (.ok a, s', w')) :
    x.result w = (.ok a, w') ∧ s' = s := by
  rw [result_lift, Prod.mk.injEq, Prod.mk.injEq] at h
  exact ⟨Prod.ext h.1 h.2.2, h.2.1.symm⟩

@[simp]
theorem result_each (stage : Stage σ α) (parts : List σ) (w : Workspace) :
    (each stage).result parts w = eachResult stage parts w := rfl

theorem each_singleton {x : Stage σ α} {s s' : σ} {w w' : Workspace} {a : α}
    (h : x.result s w = (.ok a, s', w')) : (each x).result [s] w = (.ok [a], [s'], w') := by
  rw [result_each, eachResult, h]
  rfl

/-- A run over several parts that succeeds is a success on the first part, followed by one on the
others. -/
theorem eachResult_cons_eq_ok {stage : Stage σ α} {part : σ} {parts parts' : List σ}
    {w w' : Workspace} {answers : List α}
    (h : eachResult stage (part :: parts) w = (.ok answers, parts', w')) :
    ∃ a part' w₁ rest rest', stage.result part w = (.ok a, part', w₁) ∧
      eachResult stage parts w₁ = (.ok rest, rest', w') ∧
      answers = a :: rest ∧ parts' = part' :: rest' := by
  rw [eachResult] at h
  rcases hx : stage.result part w with ⟨e | a, part', w₁⟩
  · simp [hx] at h
  · rcases hr : eachResult stage parts w₁ with ⟨e | rest, rest', w₂⟩
    · simp [hx, hr, Except.map] at h
    · simp only [hx, hr, Except.map, Prod.mk.injEq, Except.ok.injEq] at h
      obtain ⟨rfl, rfl, rfl⟩ := h
      exact ⟨a, part', w₁, rest, rest', rfl, hr, rfl, rfl⟩

/-! ## Parts of several forms -/

/-- A stage that is run on what one form of a part holds succeeds if it does on that. -/
theorem form_eq_ok {r : Except Failure α × τ × Workspace} {f : τ → σ} {s : σ} {w : Workspace} {a : α}
    (h : (r.1, f r.2.1, r.2.2) = (.ok a, s, w)) : ∃ t, r = (.ok a, t, w) ∧ s = f t := by
  obtain ⟨answer, rfl, after⟩ : _ ∧ _ ∧ _ := by simpa using h
  exact ⟨r.2.1, Prod.ext answer (Prod.ext rfl after), rfl⟩

/-- An action that is done for one form of a part succeeds if it does, and leaves the part alone. -/
theorem action_eq_ok {r : Except Failure α × Workspace} {f : α → β} {s s' : σ} {w : Workspace} {b : β}
    (h : (r.1.map f, s, r.2) = (.ok b, s', w)) : ∃ a, r = (.ok a, w) ∧ f a = b ∧ s = s' := by
  rcases r with ⟨e | a, w₁⟩
  · simp [Except.map] at h
  · obtain ⟨answer, same, after⟩ : _ ∧ _ ∧ _ := by simpa [Except.map] using h
    exact ⟨a, Prod.ext rfl after, answer, same⟩

/-- A run that passes some parts goes on with the others. -/
theorem eachResult_append {stage : Stage σ α} {parts others parts' : List σ} {w w' : Workspace}
    {answers : List α} (passed : eachResult stage parts w = (.ok answers, parts', w')) :
    eachResult stage (parts ++ others) w =
      ((eachResult stage others w').1.map (answers ++ ·),
        parts' ++ (eachResult stage others w').2.1, (eachResult stage others w').2.2) := by
  induction parts generalizing w answers parts' with
  | nil =>
    obtain ⟨rfl, rfl, rfl⟩ : [] = answers ∧ [] = parts' ∧ w = w' := by simpa [eachResult] using passed
    rw [List.nil_append]
    rcases eachResult stage others w with ⟨e | rest, others', w₂⟩ <;> rfl
  | cons part parts ih =>
    obtain ⟨a, part', w₂, rest, rest', first, later, rfl, rfl⟩ := eachResult_cons_eq_ok passed
    rw [List.cons_append, eachResult, first]
    dsimp only
    rw [ih later]
    rcases eachResult stage others w' with ⟨e | rest, others', w₂⟩ <;> rfl

/-- A stage leaves a view of its part alone, whether it succeeds or fails. -/
def KeepsPart (view : σ → γ) (x : Stage σ α) : Prop :=
  ∀ s w, view (x.result s w).2.1 = view s

section KeepsPart
variable {view : σ → γ}

theorem keepsPart_pure (a : α) : KeepsPart view (pure a : Stage σ α) := fun _ _ => rfl

theorem keepsPart_part : KeepsPart view (part : Stage σ σ) := fun _ _ => rfl

theorem keepsPart_lift (x : Action α) : KeepsPart view (liftM x : Stage σ α) := fun _ _ => rfl

theorem keepsPart_onField {field : σ → τ} {put : τ → σ → σ} (stage : Stage τ α)
    (other : ∀ inner s, view (put inner s) = view s) : KeepsPart view (onField field put stage) :=
  fun s _ => other _ s

theorem keepsPart_bind {x : Stage σ α} {f : α → Stage σ β} (hx : KeepsPart view x)
    (hf : ∀ a, KeepsPart view (f a)) : KeepsPart view (x >>= f) := by
  intro s w
  have h₁ := hx s w
  rw [result_bind]
  rcases h : x.result s w with ⟨e | a, s₁, w₁⟩
  · rw [h] at h₁
    exact h₁
  · rw [h] at h₁
    exact (hf a s₁ w₁).trans h₁

end KeepsPart

end Stage

end NativeFreeze
