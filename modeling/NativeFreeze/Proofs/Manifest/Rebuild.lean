import NativeFreeze.Proofs.Manifest.Nodes
import NativeFreeze.Proofs.Node.Run

/-!
# Building again

A build that neither writes nor removes a file that a wildcard of the manifest admits where it searches,
and that removes no data source, leaves a tree on which the manifest has the same nodes. A wildcard that
admits a generated source finds it as another source of the next build.
-/

namespace NativeFreeze

open FileTree

namespace Manifest

variable {m : Manifest} {c : BuildContext} {f : Footprint} {clean : Bool} {nodes nodes' : List Node}
  {w w₁ w' v : Workspace}

/-- What is done within a footprint is hidden from a manifest: no wildcard admits a file that is written
or removed where it searches, and no data source is removed. -/
structure Hides (m : Manifest) (f : Footprint) (clean : Bool) (t : FileTree) : Prop where
  misses : ∀ p ∈ m.sourcePatterns ++ m.dataPatterns, (Pattern.ofPath p).Misses (m.home.getD ⟨[]⟩) t
    fun l => f.Written t l ∨ f.Removed clean t l
  avoids : ∀ p ∈ m.dataPatterns,
    (Pattern.ofPath p).Avoids (m.home.getD ⟨[]⟩) t (f.Removed clean t)

/-- After a build whose files are hidden from the manifest, the manifest has the same nodes again. -/
theorem nodes_of_rebuild (orderly : c.Orderly f.strays)
    (first : m.nodes.result w = (.ok nodes, w₁)) (inside : ∀ node ∈ nodes, node.Inside c f)
    (artifacts : clean = true → ∀ p ∈ w₁.artifacts, f.records p) (plain : f.Plain clean w.files)
    (hides : m.Hides f clean w.files)
    (ran : (Node.processAll c clean).result nodes w₁ = (.ok (), nodes', w'))
    (tree : v.files = w'.files) : ∃ v', m.nodes.result v = (.ok nodes, v') := by
  obtain ⟨same, -⟩ := nodes_eq_ok first
  have kept := Node.preserves_processAll orderly plain nodes w₁ inside
    (same ▸ Footprint.Within.start artifacts)
  rw [ran] at kept
  have changed := kept.2.1.files
  obtain ⟨-, -, v', again, -⟩ :=
    repeats_nodes changed hides.misses hides.avoids w v nodes w₁ rfl tree first
  exact ⟨v', again⟩

/-- All scripts of a directory, and a file of notes. -/
def scripts : Manifest :=
  ofModule ["*.py"] ["notes"]

/-- A directory with a script and the notes. -/
def found : Workspace :=
  Sample.project ["notes", "a.py"]

/-- The nodes of `scripts` there. -/
def scriptNodes : List Node :=
  [.module ⟨"a".toList, [.script (Sample.script "a.py".toList)], false, [], []⟩,
    .data ⟨[⟨.resolve ⟨"notes".toList⟩ none⟩]⟩]

/-- The files that these nodes make. -/
def made : List Path :=
  ["a.cpp", "build/temp/Release/a.cpp.o", "build/lib/a.so", "build/lib/notes"].map fun p =>
    ⟨p.toList⟩

/-- What their build may do. -/
def making : Footprint where
  writes := (· ∈ made)
  records := (· ∈ made)
  strays _ := False

theorem scriptNodes_inside : ∀ node ∈ scriptNodes, node.Inside Sample.tools making := by
  have script : (Part.unit (.script (Sample.script "a.py".toList))).Inside Sample.tools making := by
    have generated : (Sample.script "a.py".toList).generated ∈ made := by decide
    have object : objectPath (Sample.script "a.py".toList).generated Sample.tools.dirs.temp ∈ made := by
      decide
    exact ⟨fun q hq => Option.some.inj hq ▸ ⟨generated, generated⟩,
      fun q hq _ => Option.some.inj hq ▸ ⟨object, object⟩, nofun⟩
  have library : (⟨"build/lib/a.so".toList⟩ : Path) ∈ made := by decide
  have copy : (⟨"build/lib/notes".toList⟩ : Path) ∈ made := by decide
  intro node hn
  simp only [scriptNodes, List.mem_cons, List.not_mem_nil, or_false] at hn
  rcases hn with rfl | rfl
  · exact ⟨fun u hu => List.mem_singleton.mp hu ▸ script, library⟩
  · exact ⟨nofun, nofun, fun u hu => List.mem_singleton.mp hu ▸ copy⟩

theorem scripts_hides : scripts.Hides making true found.files := by
  have goals : made.map (found.files.goal true) = [["a.cpp"], ["build", "temp", "Release", "a.cpp.o"],
      ["build", "lib", "a.so"], ["build", "lib", "notes"]].map fun l =>
        some (l.map String.toList) := by
    decide +kernel
  have removed {l : Location} (h : making.Removed true found.files l) :
      some l ∈ made.map (found.files.goal true) := by
    obtain ⟨-, p, hp, heads⟩ := h
    exact heads ▸ List.mem_map_of_mem hp
  have written {l : Location} (h : making.Written found.files l) :
      some l ∈ made.map (found.files.goal true) := by
    obtain ⟨p, hp, heads⟩ | none := h
    · exact heads ▸ List.mem_map_of_mem hp
    · exact none.elim
  have here : found.files.at? ((Pattern.ofPath ⟨"*.py".toList⟩).searched (some ⟨[]⟩)) =
      .ok ([], .directory) := by
    decide +kernel
  rw [goals] at removed written
  constructor
  · intro p hp wild l led name admitted touched
    have mem : p ∈ [(⟨"*.py".toList⟩ : Path), ⟨"notes".toList⟩] := hp
    rcases List.mem_cons.mp mem with rfl | mem
    · obtain ⟨rfl, -⟩ := Prod.mk.inj (Except.ok.inj (led.symm.trans here))
      have hidden := touched.elim written removed
      simp only [List.map_cons, List.map_nil, List.mem_cons, List.nil_append, Option.some.injEq,
        List.cons.injEq, and_true, List.not_mem_nil, or_false, reduceCtorEq, and_false] at hidden
      subst hidden
      exact absurd admitted (by decide)
    · obtain rfl := List.mem_singleton.mp mem
      exact absurd wild (by decide)
  · intro p hp qs stands q hq l heads gone
    obtain rfl := List.mem_singleton.mp hp
    have itself : (Pattern.ofPath ⟨"notes".toList⟩).found (some ⟨[]⟩) found.files =
        .ok [⟨"notes".toList⟩] := by
      decide
    obtain rfl := Except.ok.inj (stands.symm.trans itself)
    obtain rfl := List.mem_singleton.mp hq
    have there : found.files.goal true (Path.join ⟨[]⟩ ⟨"notes".toList⟩) = some ["notes".toList] := by
      decide +kernel
    obtain rfl := Option.some.inj (heads.symm.trans there)
    exact absurd (removed gone) (by decide)

theorem nodes_of_rebuild_scripts : ∃ v',
    scripts.nodes.result ((Node.processAll Sample.tools true).result scriptNodes
      (scripts.nodes.result found).2).2.2 = (.ok scriptNodes, v') := by
  have first : (scripts.nodes.result found).1 = .ok scriptNodes := by decide +kernel
  have ran : ((Node.processAll Sample.tools true).result scriptNodes
      (scripts.nodes.result found).2).1 = .ok () := by decide +kernel
  have nothing : (scripts.nodes.result found).2.artifacts = [] := by decide +kernel
  have plain : ∀ p ∈ made, found.files.goal false p = found.files.goal true p := by decide +kernel
  exact nodes_of_rebuild (Sample.orderly rfl rfl fun _ _ _ => rfl)
    (Action.result_eq_of_ok first) scriptNodes_inside
    (fun _ p hp => absurd (nothing ▸ hp) List.not_mem_nil) (fun _ => plain) scripts_hides
    (Stage.result_eq_of_ok ran) rfl

/-- All scripts of a directory, and all sources in C++. -/
def mixed : Manifest :=
  ofModule ["*.py", "*.cpp"] []

/-- The nodes of `mixed` where it finds these units. -/
def mixedNodes (units : List BuildUnit) : List Node :=
  [.module ⟨"a".toList, units, false, [], []⟩, .data ⟨[]⟩]

/-- A wildcard that admits the generated source of the first build finds it as a source of the
second. -/
theorem nodes_ne_of_rebuild_mixed : ∃ nodes w₁ nodes' w' again,
    mixed.nodes.result (Sample.project ["a.py"]) = (.ok nodes, w₁) ∧
      (Node.processAll Sample.tools false).result nodes w₁ = (.ok (), nodes', w') ∧
      (mixed.nodes.result w').1 = .ok again ∧ again ≠ nodes := by
  have first : (mixed.nodes.result (Sample.project ["a.py"])).1 =
      .ok (mixedNodes [.script (Sample.script "a.py".toList)]) := by
    decide +kernel
  have ran : ((Node.processAll Sample.tools false).result
      (mixedNodes [.script (Sample.script "a.py".toList)])
      (mixed.nodes.result (Sample.project ["a.py"])).2).1 = .ok () := by
    decide +kernel
  refine ⟨_, _, _, _, mixedNodes [.script (Sample.script "a.py".toList),
    .native (Sample.native "a.cpp".toList)], Action.result_eq_of_ok first,
    Stage.result_eq_of_ok ran, ?_, by decide +kernel⟩
  decide +kernel

end Manifest

end NativeFreeze
