import NativeFreeze.Proofs.Requests
import NativeFreeze.Proofs.Source

/-!
# Calls on a script unit

Each call on a script unit has one lemma that says all it can do. A transpile is a no-op on a
transpiled unit and otherwise asks the tool once. A freeze fails and changes nothing at all, or it
moves the unit to the next state and replaces the file tree by one in which the generated source is
patched.
-/

namespace NativeFreeze

namespace ScriptUnit

variable {u : ScriptUnit}

/-- The unit that is made of a source. -/
def ofSource (source : Source) : ScriptUnit where
  named := .of source
  generated := source.path.withSuffix generatedSuffix

/-- A unit is made from a path with an extension, and has not been transpiled. -/
theorem ofPath_eq_ok {input : Path} {home : Option Path} (h : ofPath input home = .ok u) :
    input.suffix ≠ [] ∧ u = ofSource (.resolve input home) := by
  obtain ⟨kind, h⟩ : ∃ kind,
      (do return ofSource (← Source.ofKind kind input home) : Except Failure ScriptUnit) = .ok u :=
    ⟨_, h⟩
  obtain ⟨accepted, hu⟩ := Source.make_ofKind_eq_ok h
  exact ⟨SourceKind.suffix_ne_nil accepted, hu⟩

/-- The request with which a unit is transpiled under a package flag. -/
def request (u : ScriptUnit) (package : Bool) : TranspileRequest :=
  ⟨u.inputPath, u.generated, moduleSymbol u.name package⟩

/-- The request that a transpile under a package flag still has to make. -/
def due (u : ScriptUnit) (package : Bool) : List Request :=
  if u.state.isTranspiled then [] else [.transpile (u.request package)]

/-- A unit that was transpiled under a package flag. -/
def transpiledAs (u : ScriptUnit) (package : Bool) : ScriptUnit :=
  { u with state := .transpiled, package := package, symbol := some (moduleSymbol u.name package) }

/-- A unit is transpiled once. -/
theorem transpile_again (h : u.state.isTranspiled = true) (tool : Transpiler)
    (package : Option Bool) (w : Workspace) :
    (transpile tool package).result u w = (.ok (), u, w) := by
  simp [transpile, Stage.result_bind, h]

/-- The first transpile asks the tool for the unit's source, under the module name that its package
flag asks for. -/
theorem transpile_first (h : u.state.isTranspiled = false) (tool : Transpiler)
    (package : Option Bool) (w : Workspace) :
    (transpile tool package).result u w =
      match (tool.run (u.request (package.getD u.package))).result
        { w with requests := w.requests ++ [.transpile (u.request (package.getD u.package))] } with
      | (.ok (), w) => (.ok (), u.transpiledAs (package.getD u.package), w)
      | (.error e, w) => (.error e, { u with package := package.getD u.package }, w) := by
  rcases hr : (tool.run (u.request (package.getD u.package))).result
      { w with requests := w.requests ++ [.transpile (u.request (package.getD u.package))] }
    with ⟨_ | _, w₁⟩ <;>
  · simp only [request, name, inputPath] at hr
    simp [transpile, Stage.result_bind, h, hr, transpiledAs, name, inputPath]

/-- The first transpile makes one request, and leaves a transpiled unit or, refused, the package flag
that it asked for. -/
theorem transpile_cases {tool : Transpiler} (keeps : tool.KeepsRequests)
    (h : u.state.isTranspiled = false) (package : Option Bool) (w : Workspace) :
    ∃ x, x.requests = w.requests ++ [.transpile (u.request (package.getD u.package))] ∧
      ((transpile tool package).result u w =
          (.ok (), u.transpiledAs (package.getD u.package), x) ∨
        ∃ e, (transpile tool package).result u w =
          (.error e, { u with package := package.getD u.package }, x)) := by
  have kept := keeps (u.request (package.getD u.package))
    { w with requests := w.requests ++ [.transpile (u.request (package.getD u.package))] }
  rw [transpile_first h]
  rcases hr : (tool.run (u.request (package.getD u.package))).result
    { w with requests := w.requests ++ [.transpile (u.request (package.getD u.package))] }
    with ⟨e | ⟨⟩, x⟩
  · rw [hr] at kept
    exact ⟨x, kept, .inr ⟨e, rfl⟩⟩
  · rw [hr] at kept
    exact ⟨x, kept, .inl rfl⟩

/-- A successful transpile leaves a transpiled unit, and makes the request that was due. -/
theorem transpile_eq_ok {tool : Transpiler} (keeps : tool.KeepsRequests) {package : Option Bool}
    {v : ScriptUnit} {w w' : Workspace} (h : (transpile tool package).result u w = (.ok (), v, w')) :
    v = (if u.state.isTranspiled then u else u.transpiledAs (package.getD u.package)) ∧
      w'.requests = w.requests ++ u.due (package.getD u.package) := by
  cases hs : u.state.isTranspiled with
  | true =>
    obtain ⟨rfl, rfl⟩ : u = v ∧ w = w' := by simpa [transpile_again hs] using h
    simp [due, hs]
  | false =>
    obtain ⟨x, asked, granted | ⟨e, refused⟩⟩ := transpile_cases keeps hs package w
    · obtain ⟨rfl, rfl⟩ : _ = v ∧ x = w' := by simpa [granted] using h
      rw [due, hs]
      exact ⟨rfl, asked⟩
    · simp [refused] at h

/-- `t` is `s` with the generated source of a unit edited. -/
def Patched (u : ScriptUnit) (edit : Text → Except Failure Text) (s t : FileTree) : Prop :=
  ∃ code out, s.readText u.generated = .ok code ∧ edit code = .ok out ∧
    s.write u.generated (.plain out.bytes) = .ok t

/-- Editing the generated source fails and changes nothing, or leaves a patched file tree. -/
theorem patch_cases {σ α : Type} (u : ScriptUnit) (edit : Text → Except Failure Text)
    (next : Unit → Stage σ α) (s : σ) (w : Workspace) :
    (∃ e, (do
      let code ← u.readGenerated
      let out ← Action.ofExcept (edit code)
      next (← u.writeGenerated out) : Stage σ α).result s w = (.error e, s, w)) ∨
    ∃ t, u.Patched edit w.files t ∧ (do
      let code ← u.readGenerated
      let out ← Action.ofExcept (edit code)
      next (← u.writeGenerated out) : Stage σ α).result s w =
        (next ()).result s { w with files := t } := by
  simp only [Stage.result_bind, Stage.result_lift, readGenerated, writeGenerated,
    Action.result_ask, Action.result_ofExcept, Action.result_change]
  rcases hr : w.files.readText u.generated with e | code
  · exact .inl ⟨_, rfl⟩
  dsimp only
  rcases he : edit code with e | out
  · exact .inl ⟨_, rfl⟩
  dsimp only
  rcases ht : w.files.write u.generated (.plain out.bytes) with e | t
  · exact .inl ⟨_, rfl⟩
  · exact .inr ⟨t, ⟨code, out, hr, he, ht⟩, rfl⟩

theorem checkFreezePackage_eq_ok {u : ScriptUnit} (h : u.checkFreezePackage = .ok ()) :
    u.state = .transpiled ∧ u.package = true := by
  unfold checkFreezePackage at h
  split at h <;> simp_all

theorem checkFreezeExecutable_eq_ok {u : ScriptUnit} (h : u.checkFreezeExecutable = .ok ()) :
    u.state = .transpiled ∨ u.state = .packageFrozen := by
  unfold checkFreezeExecutable at h
  split at h <;> simp_all

/-- A package freeze fails and changes nothing, or it freezes a transpiled unit of a package. -/
theorem freezePackage_cases (contract : SourceContract) (u : ScriptUnit) (w : Workspace) :
    (∃ e, (freezePackage contract).result u w = (.error e, u, w)) ∨
    ∃ t, (freezePackage contract).result u w =
        (.ok (), { u with state := .packageFrozen }, { w with files := t }) ∧
      u.state = .transpiled ∧ u.package = true ∧
      match u.identity? with
      | some identity => u.Patched (identity.freeze contract · u.generated) w.files t
      | none => t = w.files := by
  rw [freezePackage, Stage.result_bind, Stage.result_part]
  dsimp only
  rw [Stage.result_bind, Stage.result_lift, Action.result_ofExcept]
  rcases hc : u.checkFreezePackage with e | ⟨⟩
  · exact .inl ⟨e, rfl⟩
  dsimp only
  rcases hi : u.identity? with _ | identity
  · exact .inr ⟨w.files, rfl, (checkFreezePackage_eq_ok hc).1, (checkFreezePackage_eq_ok hc).2, rfl⟩
  rcases patch_cases u (identity.freeze contract · u.generated)
    (fun _ => Stage.update fun u => { u with state := .packageFrozen }) u w with ⟨e, h⟩ | ⟨t, ht, h⟩
  · exact .inl ⟨e, h⟩
  · exact .inr ⟨t, h, (checkFreezePackage_eq_ok hc).1, (checkFreezePackage_eq_ok hc).2, ht⟩

/-- Appending the bootstrap fails and changes nothing, or it makes a transpiled unit executable. -/
theorem freezeExecutable_cases (modules : List RegisteredModule) (standalone : Bool)
    (runtimeDir : Option Text) (u : ScriptUnit) (w : Workspace) :
    (∃ e, (freezeExecutable modules standalone runtimeDir).result u w = (.error e, u, w)) ∨
    ∃ t main, (freezeExecutable modules standalone runtimeDir).result u w =
        (.ok (), { u with state := .executableFrozen }, { w with files := t }) ∧
      (u.state = .transpiled ∨ u.state = .packageFrozen) ∧ u.registered = .ok main ∧
      u.Patched (Registration.append ⟨main, modules, standalone, runtimeDir⟩ · u.generated)
        w.files t := by
  rw [freezeExecutable, Stage.result_bind, Stage.result_part]
  dsimp only
  rw [Stage.result_bind, Stage.result_lift, Action.result_ofExcept]
  rcases hc : u.checkFreezeExecutable with e | ⟨⟩
  · exact .inl ⟨e, rfl⟩
  dsimp only
  rw [Stage.result_bind, Stage.result_lift, Action.result_ofExcept]
  rcases hm : u.registered with e | main
  · exact .inl ⟨e, rfl⟩
  rcases patch_cases u (Registration.append ⟨main, modules, standalone, runtimeDir⟩ · u.generated)
    (fun _ => Stage.update fun u => { u with state := .executableFrozen }) u w
    with ⟨e, h⟩ | ⟨t, ht, h⟩
  · exact .inl ⟨e, h⟩
  · exact .inr ⟨t, main, h, checkFreezeExecutable_eq_ok hc, rfl, ht⟩

end ScriptUnit

end NativeFreeze
