import NativeFreeze.Proofs.Node.Executable

/-!
# The init functions of an executable

An executable registers an init function for each of its units. Those of the parts are flattened
whole names; that of the main unit is the flattened whole name in a package and else the last piece
of the name. Hence the init functions are distinct exactly when no two names, with the last piece
for that of a main unit outside a package, differ in nothing but dots and underscores.
-/

namespace NativeFreeze.ExecutableNode

/-- The names that the init functions of an executable with the main unit `u` are made of. -/
def initNames (e : ExecutableNode) (u : ScriptUnit) : List Text :=
  (if u.package then u.name else moduleSymbol u.name false) ::
    (e.registration u).modules.map RegisteredModule.name

/-- A part registers its flattened name. -/
theorem symbol_of_row {p : Part} {m : RegisteredModule} (h : p.row? = some m) :
    m.symbol = moduleSymbol m.name true := by
  rcases p with (u | u | u | u) | d
  · obtain rfl := Option.some.inj h
    rfl
  · cases hu : isHeader u.sourcePath with
    | true => simp [Part.row?, hu] at h
    | false =>
      obtain rfl : u.registered = m := by simpa [Part.row?, hu] using h
      rfl
  · simp [Part.row?] at h
  · simp [Part.row?] at h
  · simp [Part.row?] at h

theorem main_symbol_eq (u : ScriptUnit) : moduleSymbol u.name u.package =
    moduleSymbol (if u.package then u.name else moduleSymbol u.name false) true := by
  cases u.package with
  | true => rfl
  | false => exact (moduleSymbol_eq_self (not_mem_moduleSymbol_false u.name) true).symm

/-- All init functions are made of a name in the same way. -/
theorem map_initSymbol_registered (e : ExecutableNode) (u : ScriptUnit) :
    (e.registration u).registered.map (fun m => initSymbol m.symbol) =
      (e.initNames u).map fun name => initSymbol (moduleSymbol name true) := by
  rw [Registration.registered, initNames, List.map_cons, List.map_cons, List.map_map]
  congr 1
  · exact congrArg initSymbol (main_symbol_eq u)
  · refine List.map_congr_left fun m hm => ?_
    obtain ⟨p, -, hp⟩ := List.mem_filterMap.mp hm
    exact congrArg initSymbol (symbol_of_row hp)

theorem nodup_initSymbol_iff (e : ExecutableNode) (u : ScriptUnit) :
    ((e.registration u).registered.map fun m => initSymbol m.symbol).Nodup ↔
      (e.initNames u).Pairwise fun a b => ¬SameUpToDots a b := by
  rw [map_initSymbol_registered, List.Nodup, List.pairwise_map]
  simp only [ne_eq, initSymbol_inj, moduleSymbol_true_eq_iff]

/-- Whenever an executable with a script as main unit reaches the compiler, its main unit's file ends
in the bootstrap of a registration whose init functions are distinct exactly under this condition. -/
theorem initSymbols_nodup_iff {c : BuildContext} (transpiler : c.transpiler.KeepsRequests)
    (toolchain : c.toolchain.KeepsRequests) {e : ExecutableNode} {u : ScriptUnit} {w : Workspace}
    {sources : List Path} {options : CompileOptions} (main : e.main = .script u)
    (sound : u.Sound w.requests) (parts : ∀ p ∈ e.parts, p.Sound w.requests)
    (compile : .compile sources options ∈
      ((process c).result e w).2.2.requests.drop w.requests.length) :
    ∃ e₁ w₁ code, (buildAll c).result e w = (.ok (sources, some u.inputPath), e₁, w₁) ∧
      (process c).result e w = (link c sources (some u.inputPath)).result e₁ w₁ ∧
      w₁.files.read u.generated =
        .ok (Text.bytes (code ++ "\n\n\n".toList ++ (e.registration u).render)) ∧
      (((e.registration u).registered.map fun m => initSymbol m.symbol).Nodup ↔
        (e.initNames u).Pairwise fun a b => ¬SameUpToDots a b) := by
  obtain ⟨script, e₁, w₁, built, linked⟩ := compile_mem_requests transpiler toolchain compile
  obtain ⟨rfl, assembled⟩ := buildAll_eq_ok transpiler main sound parts built
  obtain ⟨code, written⟩ := assembled.written
  exact ⟨e₁, w₁, code, built, linked, written, nodup_initSymbol_iff e u⟩

/-- An executable of a script, a module in a package, and a module outside whose name is spelled as
the other is flattened. -/
def clashing : ExecutableNode where
  name := "main".toList
  main := .script (Sample.script "main.py".toList)
  parts := ["a/b.py", "a_b.py"].map fun p => .unit (.script (Sample.script p.toList))

/-- The files that are compiled for `clashing`. -/
def clashingSources : List Path :=
  ["main.cpp", "a/b.cpp", "a_b.cpp"].map fun p => ⟨p.toList⟩

theorem clashing_sound : ∀ p ∈ clashing.parts, p.Sound Sample.start.requests := by
  intro p hp
  simp only [clashing, List.map_cons, List.map_nil, List.mem_cons, List.not_mem_nil, or_false] at hp
  rcases hp with rfl | rfl
  · exact BuildUnit.sound_ofPath? (p := ⟨"a/b.py".toList⟩) rfl Sample.start.requests
  · exact BuildUnit.sound_ofPath? (p := ⟨"a_b.py".toList⟩) rfl Sample.start.requests

theorem initSymbols_nodup_iff_clashing :
    ∃ e₁ w₁ code, (buildAll Sample.context).result clashing Sample.start =
        (.ok (clashingSources, some ⟨"main.py".toList⟩), e₁, w₁) ∧
      (process Sample.context).result clashing Sample.start =
        (link Sample.context clashingSources (some ⟨"main.py".toList⟩)).result e₁ w₁ ∧
      w₁.files.read ⟨"main.cpp".toList⟩ = .ok (Text.bytes (code ++ "\n\n\n".toList ++
        (clashing.registration (Sample.script "main.py".toList)).render)) ∧
      (((clashing.registration (Sample.script "main.py".toList)).registered.map
          fun m => initSymbol m.symbol).Nodup ↔
        (clashing.initNames (Sample.script "main.py".toList)).Pairwise
          fun a b => ¬SameUpToDots a b) := by
  have sound : (Sample.script "main.py".toList).Sound Sample.start.requests :=
    BuildUnit.sound_ofPath? (p := ⟨"main.py".toList⟩) rfl Sample.start.requests
  have compile : .compile clashingSources (Sample.context.compileOptions []) ∈
      ((process Sample.context).result clashing Sample.start).2.2.requests.drop
        Sample.start.requests.length := by
    decide +kernel
  exact initSymbols_nodup_iff Sample.transpiler_keepsRequests Sample.toolchain_keepsRequests rfl
    sound clashing_sound compile

/-- The units of `clashing` have distinct names, it reaches the compiler, and two of its units are
transpiled under one name. -/
theorem not_initSymbols_nodup_clashing :
    ((clashing.registration (Sample.script "main.py".toList)).registered.map
        RegisteredModule.name).Nodup ∧
      .compile clashingSources (Sample.context.compileOptions []) ∈
        ((process Sample.context).result clashing Sample.start).2.2.requests ∧
      .transpile ⟨⟨"a/b.py".toList⟩, ⟨"a/b.cpp".toList⟩, "a_b".toList⟩ ∈
        ((process Sample.context).result clashing Sample.start).2.2.requests ∧
      .transpile ⟨⟨"a_b.py".toList⟩, ⟨"a_b.cpp".toList⟩, "a_b".toList⟩ ∈
        ((process Sample.context).result clashing Sample.start).2.2.requests ∧
      ¬((clashing.registration (Sample.script "main.py".toList)).registered.map
        fun m => initSymbol m.symbol).Nodup := by
  decide +kernel

end NativeFreeze.ExecutableNode
