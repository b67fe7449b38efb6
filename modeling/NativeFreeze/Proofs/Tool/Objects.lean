import NativeFreeze.FileTree.Load
import NativeFreeze.Proofs.Bundle.Names
import NativeFreeze.Proofs.FileTree.Resolve
import NativeFreeze.Proofs.Node.Turns
import NativeFreeze.Proofs.Path.Extension

/-!
# Which sources share an object

The object of a source has the components of the output directory and then the names of the source, the
last of them with one more extension. The root and the steps of a source are dropped, so that no object
leaves the output directory. Two sources share an object exactly if they have the same names, and that
can be so for sources that lie apart, if one of them has an upward step or starts at the root.
-/

namespace NativeFreeze

variable {p q outputDir : Path} {s rest : Text} {pieces names names' : List Text}

/-! ## Names of a path -/

namespace Path

/-- No two of the paths are the same. -/
def AllApart (ps : List Path) : Prop :=
  ps.Pairwise fun p q => p.same q = false

instance (ps : List Path) : Decidable (AllApart ps) :=
  inferInstanceAs (Decidable (ps.Pairwise _))

theorem mem_names_iff : s ∈ p.names ↔ .name s ∈ p.components := by
  rw [Path.names, List.mem_filterMap]
  constructor
  · rintro ⟨c, hc, named⟩
    cases c with
    | name t => exact Option.some.inj named ▸ hc
    | root | here | up => exact nomatch named
  · exact fun hs => ⟨_, hs, rfl⟩

theorem isName_of_mem_names (hs : s ∈ p.names) : IsName s := by
  have inside : .name s ∈ trail p.text := by
    have mem := mem_names_iff.mp hs
    rw [components_eq] at mem
    refine (List.mem_append.mp mem).resolve_left ?_
    cases (parse p.text).1 <;> simp [Anchor.components]
  obtain ⟨whole, busy, -⟩ := trail_text inside
  obtain ⟨piece, -, named⟩ := List.mem_map.mp inside
  have same : piece = s := (component_text piece).symm.trans (congrArg Component.text named)
  exact ⟨whole, busy, fun up => by simp [same, up, component] at named⟩

theorem IsName.ne_nil (name : IsName s) : s ≠ [] := by
  rintro rfl
  simpa [isIdle] using name.busy

theorem isAbsolute_append (full : s ≠ []) (whole : '/' ∉ s) (rest : Text) :
    isAbsolute ⟨s ++ rest⟩ = false := by
  have start := isAbsolute_eq_false whole
  obtain ⟨c, s, rfl⟩ := List.exists_cons_of_ne_nil full
  exact start

theorem isAbsolute_join (all : ∀ s ∈ pieces, IsName s) :
    isAbsolute ⟨Text.join ['/'] pieces⟩ = false := by
  cases pieces with
  | nil => rfl
  | cons s pieces =>
    have name := all s List.mem_cons_self
    rw [Text.join_cons]
    exact isAbsolute_append name.ne_nil name.whole _

theorem join_piece (full : s ≠ []) (whole : '/' ∉ s) (relative : isAbsolute ⟨rest⟩ = false)
    (p : Path) : p.join ⟨s ++ '/' :: rest⟩ = (p.child s).join ⟨rest⟩ := by
  obtain ⟨front, -, -, text⟩ := exists_child_text p
  have entry : (p.child s).text = front ++ s := text s (isAbsolute_eq_false whole)
  have finish : (p.child s).text.getLast? ≠ some '/' := by
    rw [entry, List.getLast?_append_of_ne_nil _ full]
    exact fun slash => whole (List.mem_of_getLast? slash)
  have joined : (p.child s).join ⟨rest⟩ = ⟨(p.child s).text ++ '/' :: rest⟩ := by
    rw [join, if_neg (by simp [relative, entry, full]), if_neg finish]
  rw [joined, entry, List.append_assoc]
  exact congrArg Path.mk (text _ (isAbsolute_append full whole _))

/-- Joining a path of several pieces goes on through one after the other. -/
theorem join_eq_foldl_child (full : pieces ≠ []) (all : ∀ s ∈ pieces, IsName s) (p : Path) :
    p.join ⟨Text.join ['/'] pieces⟩ = pieces.foldl child p := by
  induction pieces generalizing p with
  | nil => exact absurd rfl full
  | cons s pieces ih =>
    obtain ⟨name, rest⟩ := List.forall_mem_cons.mp all
    cases pieces with
    | nil => simp [Text.join, child]
    | cons next pieces =>
      have joined : Text.join ['/'] (s :: next :: pieces) =
          s ++ '/' :: Text.join ['/'] (next :: pieces) := by
        simp [Text.join]
      rw [List.foldl_cons, ← ih (by simp) rest, joined,
        join_piece name.ne_nil name.whole (isAbsolute_join rest)]

end Path

open NativeFreeze.Path

/-! ## Objects -/

/-- The extension that a name is given in the path of its object. -/
def objectSuffix : Text := ".o".toList

/-- The names of an object below the output directory. -/
def objectNames (names : List Text) : List Text :=
  names.dropLast ++ [names.getLast?.getD [] ++ objectSuffix]

theorem join_objectNames (names : List Text) :
    Text.join ['/'] (objectNames names) = Text.join ['/'] names ++ objectSuffix := by
  rcases List.eq_nil_or_concat names with rfl | ⟨front, last, rfl⟩
  · rfl
  · simp [objectNames, Text.join_concat]

theorem objectNames_injective (full : [] ∉ names) (full' : [] ∉ names')
    (same : objectNames names = objectNames names') : names = names' := by
  obtain ⟨front, last⟩ := List.append_singleton_inj.mp same
  have last := List.append_cancel_right last
  rcases List.eq_nil_or_concat names with rfl | ⟨before, s, rfl⟩ <;>
    rcases List.eq_nil_or_concat names' with rfl | ⟨before', s', rfl⟩ <;> simp_all

theorem isName_of_mem_objectNames (hs : s ∈ objectNames p.names) : IsName s := by
  rcases List.mem_append.mp hs with front | last
  · exact isName_of_mem_names (List.dropLast_subset _ front)
  · obtain rfl := List.mem_singleton.mp last
    have whole : '/' ∉ p.names.getLast?.getD [] := by
      cases h : p.names.getLast? with
      | none => exact List.not_mem_nil
      | some s => exact (isName_of_mem_names (List.mem_of_getLast? h)).whole
    generalize p.names.getLast?.getD [] = s at whole
    refine ⟨by simp [whole, objectSuffix], ?_, ?_⟩
    · cases s <;> simp [isIdle, objectSuffix]
    · intro dots
      have ends := congrArg List.getLast? dots
      simp [objectSuffix] at ends

/-- The object of a source has the components of the output directory, and then names. -/
theorem components_objectPath (source outputDir : Path) :
    (objectPath source outputDir).components =
      outputDir.components ++ (objectNames source.names).map .name := by
  have pieces : ∀ s ∈ objectNames source.names, IsName s := fun _ => isName_of_mem_objectNames
  have names : ∀ s ∈ source.names, IsName s := fun _ => isName_of_mem_names
  have joined : objectPath source outputDir =
      outputDir.join ⟨Text.join ['/'] (objectNames source.names)⟩ := by
    obtain ⟨front, -, -, text⟩ := exists_child_text outputDir
    have inside := text _ (isAbsolute_join names)
    have whole := text _ (isAbsolute_join pieces)
    rw [join_objectNames, ← List.append_assoc] at whole
    rw [join_objectNames, objectPath]
    exact congrArg Path.mk ((congrArg (· ++ objectSuffix) inside).trans whole.symm)
  rw [joined, join_eq_foldl_child (by simp [objectNames]) pieces,
    components_foldl_of_isName outputDir pieces]

/-- Two sources have the same object exactly if they have the same names. -/
theorem objectPath_same_iff :
    (objectPath p outputDir).same (objectPath q outputDir) = true ↔ p.names = q.names := by
  have full (p : Path) : [] ∉ p.names := fun mem => (isName_of_mem_names mem).ne_nil rfl
  rw [same_iff, components_objectPath, components_objectPath, List.append_cancel_left_eq,
    List.map_inj_right fun _ _ => Component.name.inj]
  exact ⟨objectNames_injective (full p) (full q), congrArg objectNames⟩

/-- Paths that have file names and the same names have the same file name. -/
theorem fileName?_of_names (hp : p.fileName? = some s) (hq : q.fileName? = some t)
    (same : p.names = q.names) : s = t := by
  have last {r : Path} {name : Text} (named : r.fileName? = some name) :
      r.names.getLast? = some name := by
    rw [names, components_of_fileName? named, List.filterMap_append]
    exact List.getLast?_concat
  exact Option.some.inj ((last hp).symm.trans ((congrArg List.getLast? same).trans (last hq)))

/-- Sources that differ in their stem or their extension have different objects. -/
theorem objectPath_same_eq_false (hp : p.fileName? = some s) (hq : q.fileName? = some t)
    (differ : p.stem? ≠ q.stem? ∨ p.suffix ≠ q.suffix) :
    (objectPath p outputDir).same (objectPath q outputDir) = false := by
  rw [Bool.eq_false_iff, ne_eq, objectPath_same_iff]
  intro same
  obtain rfl := fileName?_of_names hp hq same
  rcases differ with stem | extension
  · exact stem (by rw [stem?, stem?, hp, hq])
  · exact extension (by rw [suffix, suffix, hp, hq])

/-! ## Where sources and objects lie -/

namespace FileTree

/-- Where a step leads from a location, in the text alone. -/
def Step.goOn (l : Location) : Step → Location
  | .stay => l
  | .up => l.dropLast
  | .enter name => l ++ [name]

theorem foldl_goOn_filter (steps : List Step) (l : Location) :
    (steps.filter (· ≠ .stay)).foldl Step.goOn l = steps.foldl Step.goOn l := by
  induction steps generalizing l with
  | nil => rfl
  | cons step steps ih => cases step <;> simp [Step.goOn, ← ih]

theorem foldl_goOn_enter (names : List Text) (l : Location) :
    (names.map Step.enter).foldl Step.goOn l = l ++ names := by
  induction names generalizing l with
  | nil => simp
  | cons name names ih => simp [Step.goOn, ih]

/-- Where a path leads, component by component. -/
theorem locate_eq_foldl (base : Location) (p : Path) :
    locate base p = (p.components.filterMap Component.step?).foldl Step.goOn
      (if p.isAbsolute then [] else base) := by
  have steps : locate base p = ((Text.split '/' p.text).map Step.ofPiece).foldl Step.goOn
      (if p.isAbsolute then [] else base) := by
    rw [locate]
    congr 1
  rw [steps, ← foldl_goOn_filter, filter_steps]

/-- Without upward steps, a path names what its names lead to. -/
theorem locate_eq_append (level : .up ∉ p.components) (base : Location) :
    locate base p = (if p.isAbsolute then [] else base) ++ p.names := by
  have enter : p.components.filterMap Component.step? = p.names.map .enter := by
    rw [Path.names, List.map_filterMap]
    refine List.filterMap_congr fun c hc => ?_
    cases c with
    | up => exact absurd hc level
    | root | here | name => rfl
  rw [locate_eq_foldl, enter, foldl_goOn_enter]

/-- Wherever a directory lies, the names behind its components lead on from there. -/
theorem locate_of_components (behind : q.components = p.components ++ names.map .name)
    (base : Location) : locate base q = locate base p ++ names := by
  have start : q.isAbsolute = p.isAbsolute := by
    rw [Bool.eq_iff_iff, isAbsolute_iff, isAbsolute_iff, behind]
    cases p.components with
    | nil => cases names <;> simp
    | cons c rest => rfl
  have enter : (names.map Component.name).filterMap Component.step? = names.map .enter := by
    rw [List.filterMap_map]
    exact congrFun (List.filterMap_eq_map (f := Step.enter)) names
  rw [locate_eq_foldl, locate_eq_foldl, behind, start, List.filterMap_append, enter,
    List.foldl_append, foldl_goOn_enter]

end FileTree

open FileTree

/-- Objects stay strictly below the output directory: behind its components there are names alone, at
least one, and they lead on from wherever the directory lies. The texts of two objects are the same
exactly if the sources have the same names, and so sources with file names that differ in their stem or
their extension never share an object. -/
theorem objectPath_confined (outputDir : Path) :
    (∀ source, ∃ name names,
      outputDir.below? (objectPath source outputDir) = some (.name name :: names.map .name) ∧
        ∀ base, locate base (objectPath source outputDir) =
          locate base outputDir ++ name :: names) ∧
      (∀ p q, (objectPath p outputDir).text = (objectPath q outputDir).text ↔ p.names = q.names) ∧
      ∀ p q s t, p.fileName? = some s → q.fileName? = some t →
        p.stem? ≠ q.stem? ∨ p.suffix ≠ q.suffix →
        (objectPath p outputDir).same (objectPath q outputDir) = false := by
  refine ⟨fun source => ?_, fun p q => ⟨fun same => ?_, fun same => ?_⟩,
    fun _ _ _ _ => objectPath_same_eq_false⟩
  · have full : objectNames source.names ≠ [] := by simp [objectNames]
    obtain ⟨name, names, pieces⟩ := List.exists_cons_of_ne_nil full
    have behind := components_objectPath source outputDir
    rw [pieces] at behind
    exact ⟨name, names, componentsAfter?_eq_some_iff.mpr behind, locate_of_components behind⟩
  · have components : (objectPath p outputDir).components = (objectPath q outputDir).components :=
      congrArg (fun text => Path.components ⟨text⟩) same
    exact objectPath_same_iff.mp (same_iff.mpr components)
  · rw [objectPath, objectPath, same]

theorem objectPath_confined_variants :
    ∃ s t, fileName? ⟨"/src/../fast.c".toList⟩ = some s ∧ fileName? ⟨"./src/fast.cpp".toList⟩ = some t ∧
      suffix ⟨"/src/../fast.c".toList⟩ ≠ suffix ⟨"./src/fast.cpp".toList⟩ ∧
      (objectPath ⟨"/src/../fast.c".toList⟩ ⟨"../build/".toList⟩).same
        (objectPath ⟨"./src/fast.cpp".toList⟩ ⟨"../build/".toList⟩) = false := by
  have first : fileName? ⟨"/src/../fast.c".toList⟩ = some "fast.c".toList := by decide
  have second : fileName? ⟨"./src/fast.cpp".toList⟩ = some "fast.cpp".toList := by decide
  have differ : suffix ⟨"/src/../fast.c".toList⟩ ≠ suffix ⟨"./src/fast.cpp".toList⟩ := by decide
  obtain ⟨-, -, apart⟩ := objectPath_confined ⟨"../build/".toList⟩
  exact ⟨_, _, first, second, differ, apart _ _ _ _ first second (.inr differ)⟩

namespace Compiler

variable {around : Surroundings} {compiler : Text} {options : CompileOptions}
  {sources objects : List Path} {w w' : Workspace}

/-- A compiler that succeeds answers one object for each source that is no header, in their order. No
two are the same exactly if no two of the sources have the same names; so it is, in particular, where
sources without upward steps, all relative or all absolute, lie apart from some directory. -/
theorem objects_apart_iff
    (compiled : ((toolchain around compiler).compile sources options).result w = (.ok objects, w')) :
    objects = (sources.filter fun p => !isHeader p).map (objectPath · options.outputDir) ∧
      (AllApart objects ↔
        (sources.filter fun p => !isHeader p).Pairwise fun p q => p.names ≠ q.names) ∧
      ((∀ p ∈ sources, .up ∉ p.components) →
        (∃ rooted, ∀ p ∈ sources, p.isAbsolute = rooted) →
        (sources.Pairwise fun p q => ∃ base, locate base p ≠ locate base q) →
        AllApart objects) := by
  have answer := toolchain_answersObjects around compiler sources options w objects
    (congrArg Prod.fst compiled)
  have apart : AllApart objects ↔
      (sources.filter fun p => !isHeader p).Pairwise fun p q => p.names ≠ q.names := by
    rw [answer, objectPaths, AllApart, List.pairwise_map]
    simp only [← Bool.not_eq_true, objectPath_same_iff, ne_eq]
  refine ⟨answer, apart, fun level start lie => apart.mpr ?_⟩
  obtain ⟨rooted, start⟩ := start
  refine (lie.imp_of_mem ?_).filter _
  rintro p q hp hq ⟨base, other⟩ same
  rw [locate_eq_append (level p hp), locate_eq_append (level q hq), start p hp, start q hq,
    same] at other
  exact other rfl

/-- A host on which every program does nothing, and does it well. -/
def Sample.idle : Surroundings where
  launch _ _ t := (.ok ⟨.code 0, [], []⟩, t)
  valueOf? _ := none

/-- What an idle compiler answers to these sources. -/
def Sample.compile (sources : List Path) (outputDir : Path) : Except Failure (List Path) × Workspace :=
  ((toolchain Sample.idle "cc".toList).compile sources ⟨[], outputDir⟩).result {}

/-- Sources that differ in their extension or their directory, and a header. -/
def Sample.variants : List Path :=
  [⟨"src/fast.c".toList⟩, ⟨"src/fast.h".toList⟩, ⟨"./src/fast.cpp".toList⟩, ⟨"lib//fast.c".toList⟩]

theorem objects_apart_iff_variants :
    ∃ objects, (Sample.compile Sample.variants ⟨"build/temp".toList⟩).1 = .ok objects ∧
      objects = [⟨"build/temp/src/fast.c.o".toList⟩, ⟨"build/temp/src/fast.cpp.o".toList⟩,
        ⟨"build/temp/lib/fast.c.o".toList⟩] ∧
      (∀ p ∈ Sample.variants, .up ∉ p.components) ∧
      (∀ p ∈ Sample.variants, p.isAbsolute = false) ∧
      (Sample.variants.Pairwise fun p q => ∃ base, locate base p ≠ locate base q) ∧
      AllApart objects := by
  have compiled : (Sample.compile Sample.variants ⟨"build/temp".toList⟩).1 =
      .ok [⟨"build/temp/src/fast.c.o".toList⟩, ⟨"build/temp/src/fast.cpp.o".toList⟩,
        ⟨"build/temp/lib/fast.c.o".toList⟩] := by decide +kernel
  have level : ∀ p ∈ Sample.variants, .up ∉ p.components := by decide
  have start : ∀ p ∈ Sample.variants, p.isAbsolute = false := by decide
  have apart : Sample.variants.Pairwise fun p q => locate [] p ≠ locate [] q := by decide
  have lie : Sample.variants.Pairwise fun p q => ∃ base, locate base p ≠ locate base q :=
    apart.imp fun other => ⟨[], other⟩
  obtain ⟨-, -, spared⟩ := objects_apart_iff (Action.result_eq_of_ok compiled)
  exact ⟨_, compiled, rfl, level, start, lie, spared level ⟨false, start⟩ lie⟩

/-- Two sources that lie apart, seen from anywhere, with one object: an upward step is dropped. -/
theorem not_objects_apart_upward :
    (∀ base, locate base ⟨"a/../b.c".toList⟩ ≠ locate base ⟨"a/b.c".toList⟩) ∧
      (Sample.compile [⟨"a/../b.c".toList⟩, ⟨"a/b.c".toList⟩] ⟨"out".toList⟩).1 =
        .ok [⟨"out/a/b.c.o".toList⟩, ⟨"out/a/b.c.o".toList⟩] ∧
      ¬AllApart [⟨"out/a/b.c.o".toList⟩, ⟨"out/a/b.c.o".toList⟩] := by
  refine ⟨fun base same => ?_, by decide +kernel, by decide⟩
  have up : locate base ⟨"a/../b.c".toList⟩ = (base ++ ["a".toList]).dropLast ++ ["b.c".toList] := rfl
  have down : locate base ⟨"a/b.c".toList⟩ = base ++ ["a".toList] ++ ["b.c".toList] := rfl
  have lengths := congrArg List.length (up.symm.trans (same.trans down))
  simp at lengths

end Compiler

end NativeFreeze
