import Mathlib.Data.List.Forall2
import NativeFreeze.Bundle.Plan
import NativeFreeze.Proofs.Path.Order

/-!
# What a bundle plan is made of

On a host whose paths are told apart by case, what a path adds to a plan depends on its components
alone. So a plan depends on which paths are dependencies and not on their order, repetition or
spelling, and it holds exactly what its dependencies add to it.
-/

namespace NativeFreeze

open NativeFreeze.Path

variable {h : Layout} {p q : Path}

/-! ## Placing a path -/

namespace Layout

/-- The path `p` falls under the subtree `kind` and has the names `segments` below its root. -/
structure Places (h : Layout) (p : Path) (kind : Subtree) (segments : List Text) : Prop where
  classify : h.classify? p = some kind
  below : h.segmentsBelow? p (h.root kind) = some segments

theorem segmentsBelow?_congr (sensitive : h.caseInsensitive = false) (same : p.same q = true)
    (root : Path) : h.segmentsBelow? p root = h.segmentsBelow? q root := by
  have components := same_iff.mp same
  simp [segmentsBelow?, sensitive, below?, components]

theorem classify?_congr (sensitive : h.caseInsensitive = false) (same : p.same q = true) :
    h.classify? p = h.classify? q := by
  simp only [classify?, segmentsBelow?_congr sensitive same]

theorem Places.congr {kind : Subtree} {segments : List Text} (placed : h.Places p kind segments)
    (sensitive : h.caseInsensitive = false) (same : p.same q = true) : h.Places q kind segments where
  classify := (classify?_congr sensitive same).symm.trans placed.classify
  below := (segmentsBelow?_congr sensitive same _).symm.trans placed.below

end Layout

namespace ArchiveSource

/-- What a source is told apart by: the components of its path, and its name. -/
def key (s : ArchiveSource) : List Component × Text :=
  (s.path.components, s.name)

theorem same_iff_and {s t : ArchiveSource} :
    s.same t = true ↔ s.path.same t.path = true ∧ s.name = t.name := by
  simp [ArchiveSource.same]

theorem same_iff {s t : ArchiveSource} : s.same t = true ↔ s.key = t.key := by
  rw [same_iff_and, key, key, Prod.mk.injEq, Path.same_iff]

end ArchiveSource

namespace BundlePlan

/-! ## Dependencies without repetitions -/

theorem subset_of_lastOfEqual (ps : List Path) : lastOfEqual ps ⊆ ps := by
  fun_induction lastOfEqual ps with
  | case1 => exact fun _ hr => hr
  | case2 p => exact fun _ hr => hr
  | case3 p q rest same ih => exact fun _ hr => List.mem_cons_of_mem p (ih hr)
  | case4 p q rest differ ih =>
    intro r hr
    rcases List.mem_cons.mp hr with rfl | hr
    · exact List.mem_cons_self
    · exact List.mem_cons_of_mem p (ih hr)

/-- No path is lost up to its spelling. -/
theorem exists_same_lastOfEqual {ps : List Path} (hp : p ∈ ps) :
    ∃ q ∈ lastOfEqual ps, p.same q = true := by
  fun_induction lastOfEqual ps generalizing p with
  | case1 => exact absurd hp List.not_mem_nil
  | case2 q => exact ⟨q, List.mem_singleton_self q, List.mem_singleton.mp hp ▸ same_refl p⟩
  | case3 first second rest same ih =>
    rcases List.mem_cons.mp hp with rfl | hp
    · obtain ⟨q, hq, later⟩ := ih List.mem_cons_self
      exact ⟨q, hq, same_trans same later⟩
    · exact ih hp
  | case4 first second rest differ ih =>
    rcases List.mem_cons.mp hp with rfl | hp
    · exact ⟨p, List.mem_cons_self, same_refl p⟩
    · obtain ⟨q, hq, same⟩ := ih hp
      exact ⟨q, List.mem_cons_of_mem first hq, same⟩

/-- In a sorted list, what is left ascends strictly. -/
theorem pairwise_lastOfEqual {ps : List Path} (sorted : ps.Pairwise fun p q => p.le q = true) :
    (lastOfEqual ps).Pairwise fun p q => p.compare q = .lt := by
  fun_induction lastOfEqual ps with
  | case1 => exact List.Pairwise.nil
  | case2 p => exact List.pairwise_singleton _ p
  | case3 p q rest same ih => exact ih (List.pairwise_cons.mp sorted).2
  | case4 p q rest differ ih =>
    obtain ⟨first, others⟩ := List.pairwise_cons.mp sorted
    have below : p.compare q = .lt := by
      have le := first q List.mem_cons_self
      have ne : p.compare q ≠ .eq := fun eq => differ (compare_eq_iff.mp eq)
      rw [Path.le] at le
      cases hc : p.compare q <;> simp_all
    refine List.pairwise_cons.mpr ⟨fun r hr => ?_, ih others⟩
    rcases List.mem_cons.mp (subset_of_lastOfEqual _ hr) with rfl | hr
    · exact below
    · exact @Std.TransCmp.lt_of_lt_of_isLE _ compareComponents _ _ _ _ below
        ((List.pairwise_cons.mp others).1 r hr)

/-- Dependencies in the order in which they are planned, each once. -/
def ordered (dependencies : List Path) : List Path :=
  lastOfEqual (sort dependencies)

theorem mem_of_mem_ordered {ps : List Path} (hp : p ∈ ordered ps) : p ∈ ps :=
  mem_sort.mp (subset_of_lastOfEqual _ hp)

theorem exists_same_ordered {ps : List Path} (hp : p ∈ ps) : ∃ q ∈ ordered ps, p.same q = true :=
  exists_same_lastOfEqual (mem_sort.mpr hp)

theorem pairwise_map_components (ps : List Path) :
    ((ordered ps).map components).Pairwise fun a b => compareComponents a b = .lt :=
  List.pairwise_map.mpr (pairwise_lastOfEqual (pairwise_sort ps))

/-- Two lists of dependencies name the same paths. -/
def SamePaths (ps qs : List Path) : Prop :=
  (∀ p ∈ ps, ∃ q ∈ qs, p.same q = true) ∧ ∀ q ∈ qs, ∃ p ∈ ps, q.same p = true

instance (ps qs : List Path) : Decidable (SamePaths ps qs) :=
  inferInstanceAs (Decidable (_ ∧ _))

theorem mem_map_components_ordered {ps qs : List Path}
    (covered : ∀ p ∈ ps, ∃ q ∈ qs, p.same q = true) {cs : List Component}
    (hc : cs ∈ (ordered ps).map components) : cs ∈ (ordered qs).map components := by
  obtain ⟨p, hp, rfl⟩ := List.mem_map.mp hc
  obtain ⟨q, hq, hpq⟩ := covered p (mem_of_mem_ordered hp)
  obtain ⟨r, hr, hqr⟩ := exists_same_ordered hq
  exact List.mem_map.mpr ⟨r, hr, (same_iff.mp (same_trans hpq hqr)).symm⟩

/-- Lists that name the same paths are planned in the same order. -/
theorem map_components_ordered_eq {ps qs : List Path} (same : SamePaths ps qs) :
    (ordered ps).map components = (ordered qs).map components := by
  have irrefl (cs : List Component) : compareComponents cs cs ≠ .lt := by
    rw [@Std.ReflCmp.compare_self _ compareComponents]
    exact nofun
  have nodup (rs : List Path) : ((ordered rs).map components).Nodup := by
    apply (pairwise_map_components rs).imp
    intro a b lt eq
    exact irrefl b (eq ▸ lt)
  have perm : ((ordered ps).map components).Perm ((ordered qs).map components) :=
    (List.perm_ext_iff_of_nodup (nodup ps) (nodup qs)).mpr fun _ =>
      ⟨mem_map_components_ordered same.1, mem_map_components_ordered same.2⟩
  refine perm.eq_of_pairwise ?_ (pairwise_map_components ps) (pairwise_map_components qs)
  intro a b _ _ ab ba
  exact absurd (Std.TransCmp.lt_trans ab ba) (irrefl a)

theorem forall₂_ordered {ps qs : List Path} (same : SamePaths ps qs) :
    List.Forall₂ (fun p q => p.same q = true) (ordered ps) (ordered qs) := by
  have eq := map_components_ordered_eq same
  rw [← List.forall₂_eq_eq_eq, List.forall₂_map_left_iff, List.forall₂_map_right_iff] at eq
  exact eq.imp fun _ _ => same_iff.mpr

/-! ## Shares -/

/-- Shares that differ at most in how a path is spelled. -/
def Share.Alike : Share → Share → Prop
  | .nothing, .nothing => True
  | .file s, .file t => s.same t = true
  | .folder s, .folder t => s.same t = true
  | .library p, .library q => p.same q = true
  | _, _ => False

theorem Share.Alike.trans {a b c : Share} (hab : a.Alike b) (hbc : b.Alike c) : a.Alike c := by
  cases a <;> cases b <;> cases c <;>
    simp_all [Share.Alike, ArchiveSource.same_iff, Path.same_iff]

/-- What a path adds to a plan depends on its components alone. -/
theorem share_alike (sensitive : h.caseInsensitive = false) (same : p.same q = true) :
    (share h p).Alike (share h q) := by
  unfold share
  rw [Layout.classify?_congr sensitive same]
  cases h.classify? q with
  | none => trivial
  | some kind =>
    dsimp only
    rw [Layout.segmentsBelow?_congr sensitive same]
    split
    · exact same
    · split
      · trivial
      · trivial
      · exact ArchiveSource.same_iff.mpr (congrArg (·, _) (Path.same_iff.mp same))
      · exact ArchiveSource.same_iff.mpr rfl

theorem share_eq_file_iff {s : ArchiveSource} : share h p = .file s ↔
    s.path = p ∧ ∃ kind, kind.isArchived = true ∧ h.Places p kind [s.name] := by
  obtain ⟨path, name⟩ := s
  constructor
  · intro eq
    unfold share at eq
    split at eq
    · simp at eq
    · rename_i kind classify
      split at eq
      · simp at eq
      · rename_i archived
        split at eq <;> simp at eq
        obtain ⟨rfl, rfl⟩ := eq
        exact ⟨rfl, kind, by simpa using archived, classify, by assumption⟩
  · rintro ⟨rfl, kind, archived, placed⟩
    simp [share, placed.classify, placed.below, archived]

theorem share_eq_folder_iff {s : ArchiveSource} : share h p = .folder s ↔
    ∃ kind next rest, kind.isArchived = true ∧ h.Places p kind (s.name :: next :: rest) ∧
      s.path = (h.root kind).child s.name := by
  obtain ⟨path, name⟩ := s
  constructor
  · intro eq
    unfold share at eq
    split at eq
    · simp at eq
    · rename_i kind classify
      split at eq
      · simp at eq
      · rename_i archived
        split at eq <;> simp at eq
        obtain ⟨rfl, rfl⟩ := eq
        exact ⟨kind, _, _, by simpa using archived, ⟨classify, by assumption⟩, rfl⟩
  · rintro ⟨kind, next, rest, archived, placed, at_root⟩
    obtain rfl : path = (h.root kind).child name := at_root
    simp [share, placed.classify, placed.below, archived]

theorem share_eq_library_iff : share h p = .library q ↔
    q = p ∧ h.classify? p = some .native := by
  constructor
  · intro eq
    unfold share at eq
    split at eq
    · simp at eq
    · rename_i kind classify
      split at eq
      · rename_i loose
        obtain rfl := Share.library.inj eq
        cases kind with
        | native => exact ⟨rfl, classify⟩
        | thirdParty => simp [Subtree.isArchived] at loose
        | standard => simp [Subtree.isArchived] at loose
      · split at eq <;> simp at eq
  · rintro ⟨rfl, native⟩
    simp [share, native, Subtree.isArchived]

theorem share_alike_file_iff {s : ArchiveSource} : (share h p).Alike (.file s) ↔
    p.same s.path = true ∧ ∃ kind, kind.isArchived = true ∧ h.Places p kind [s.name] := by
  have alike : ∀ a : Share, a.Alike (.file s) ↔ ∃ f, a = .file f ∧ f.same s = true := by
    intro a
    cases a <;> simp [Share.Alike]
  rw [alike]
  constructor
  · rintro ⟨f, shared, same⟩
    obtain ⟨rfl, placed⟩ := share_eq_file_iff.mp shared
    obtain ⟨path, name⟩ := ArchiveSource.same_iff_and.mp same
    exact ⟨path, name ▸ placed⟩
  · rintro ⟨path, placed⟩
    exact ⟨⟨p, s.name⟩, share_eq_file_iff.mpr ⟨rfl, placed⟩,
      ArchiveSource.same_iff_and.mpr ⟨path, rfl⟩⟩

theorem share_alike_folder_iff {s : ArchiveSource} : (share h p).Alike (.folder s) ↔
    ∃ kind next rest, kind.isArchived = true ∧ h.Places p kind (s.name :: next :: rest) ∧
      ((h.root kind).child s.name).same s.path = true := by
  have alike : ∀ a : Share, a.Alike (.folder s) ↔ ∃ f, a = .folder f ∧ f.same s = true := by
    intro a
    cases a <;> simp [Share.Alike]
  rw [alike]
  constructor
  · rintro ⟨f, shared, same⟩
    obtain ⟨kind, next, rest, archived, placed, at_root⟩ := share_eq_folder_iff.mp shared
    obtain ⟨path, name⟩ := ArchiveSource.same_iff_and.mp same
    exact ⟨kind, next, rest, archived, name ▸ placed, name ▸ at_root ▸ path⟩
  · rintro ⟨kind, next, rest, archived, placed, path⟩
    have shared : share h p = .folder ⟨(h.root kind).child s.name, s.name⟩ :=
      share_eq_folder_iff.mpr ⟨kind, next, rest, archived, placed, rfl⟩
    exact ⟨_, shared, ArchiveSource.same_iff_and.mpr ⟨path, rfl⟩⟩

theorem share_alike_library_iff : (share h p).Alike (.library q) ↔
    p.same q = true ∧ h.classify? p = some .native := by
  have alike : ∀ a : Share, a.Alike (.library q) ↔ ∃ l, a = .library l ∧ l.same q = true := by
    intro a
    cases a <;> simp [Share.Alike]
  rw [alike]
  constructor
  · rintro ⟨l, shared, same⟩
    obtain ⟨rfl, native⟩ := share_eq_library_iff.mp shared
    exact ⟨same, native⟩
  · rintro ⟨same, native⟩
    exact ⟨p, share_eq_library_iff.mpr ⟨rfl, native⟩, same⟩

/-! ## Plans -/

/-- Plans with the same entries in the same order, up to the spelling of paths. -/
structure Alike (plan other : BundlePlan) : Prop where
  files : List.Forall₂ (fun s t => s.same t = true) plan.files other.files
  folders : List.Forall₂ (fun s t => s.same t = true) plan.folders other.folders
  native : List.Forall₂ (fun p q => p.same q = true) plan.native other.native

section AddNew
variable {α κ : Type} {same : α → α → Bool} {key : α → κ} {x y : α} {xs ys : List α}
  (told : ∀ x y, same x y = true ↔ key x = key y)
include told

theorem exists_same_iff (y : α) (xs : List α) :
    (∃ z ∈ xs, same z y = true) ↔ key y ∈ xs.map key := by
  simp only [told, List.mem_map]

theorem forall₂_same_iff (xs ys : List α) :
    List.Forall₂ (fun x y => same x y = true) xs ys ↔ xs.map key = ys.map key := by
  rw [← List.forall₂_eq_eq_eq, List.forall₂_map_left_iff, List.forall₂_map_right_iff]
  simp only [told]

/-- An addition to a list is one to its keys. -/
theorem map_addNew [DecidableEq κ] (x : α) (xs : List α) : (addNew same x xs).map key =
    if key x ∈ xs.map key then xs.map key else xs.map key ++ [key x] := by
  have known : xs.any (same x) = true ↔ key x ∈ xs.map key := by
    rw [List.any_eq_true, List.mem_map]
    simp only [told, eq_comm]
  unfold addNew
  by_cases hx : key x ∈ xs.map key
  · rw [if_pos hx, if_pos (known.mpr hx)]
  · rw [if_neg hx, if_neg (hx ∘ known.mp), List.map_append, List.map_singleton]

/-- Alike additions keep lists alike. -/
theorem addNew_forall₂ [DecidableEq κ] (hxy : same x y = true)
    (lists : List.Forall₂ (fun x y => same x y = true) xs ys) :
    List.Forall₂ (fun x y => same x y = true) (addNew same x xs) (addNew same y ys) := by
  rw [forall₂_same_iff told] at lists ⊢
  rw [map_addNew told, map_addNew told, (told x y).mp hxy, lists]

/-- What has its like in a list after an addition had it before or is like the added one. -/
theorem exists_addNew_iff [DecidableEq κ] (x y : α) (xs : List α) :
    (∃ z ∈ addNew same x xs, same z y = true) ↔ same x y = true ∨ ∃ z ∈ xs, same z y = true := by
  rw [exists_same_iff told, exists_same_iff told, map_addNew told, told]
  split
  · rename_i known
    constructor
    · exact .inr
    · rintro (hxy | found)
      · exact hxy ▸ known
      · exact found
  · rw [List.mem_append, List.mem_singleton, eq_comm, or_comm]

end AddNew

theorem alike_add {plan other : BundlePlan} {a b : Share} (plans : plan.Alike other)
    (shares : a.Alike b) : (plan.add a).Alike (other.add b) := by
  obtain ⟨files, folders, native⟩ := plans
  cases a <;> cases b <;> try exact shares.elim
  case nothing.nothing => exact ⟨files, folders, native⟩
  case file.file =>
    exact ⟨addNew_forall₂ (fun _ _ => ArchiveSource.same_iff) shares files, folders, native⟩
  case folder.folder =>
    exact ⟨files, addNew_forall₂ (fun _ _ => ArchiveSource.same_iff) shares folders, native⟩
  case library.library =>
    exact ⟨files, folders, addNew_forall₂ (fun _ _ => Path.same_iff) shares native⟩

theorem alike_foldl_add {plan other : BundlePlan} {as bs : List Share} (plans : plan.Alike other)
    (shares : List.Forall₂ Share.Alike as bs) : (as.foldl add plan).Alike (bs.foldl add other) := by
  induction shares generalizing plan other with
  | nil => exact plans
  | cons same _ ih => exact ih (alike_add plans same)

/-- Dependencies that name the same paths make the same plan. -/
theorem ofDependencies_alike (sensitive : h.caseInsensitive = false) {ps qs : List Path}
    (same : SamePaths ps qs) : (ofDependencies h ps).Alike (ofDependencies h qs) := by
  have shares : List.Forall₂ Share.Alike ((ordered ps).map (share h))
      ((ordered qs).map (share h)) := by
    rw [List.forall₂_map_left_iff, List.forall₂_map_right_iff]
    exact (forall₂_ordered same).imp fun _ _ => share_alike sensitive
  exact alike_foldl_add ⟨.nil, .nil, .nil⟩ shares

/-- A plan holds a share, up to the spelling of paths. -/
def Holds (plan : BundlePlan) : Share → Prop
  | .nothing => False
  | .file s => ∃ f ∈ plan.files, f.same s = true
  | .folder s => ∃ f ∈ plan.folders, f.same s = true
  | .library p => ∃ q ∈ plan.native, q.same p = true

/-- A plan with one more share holds this one and what it held before. -/
theorem holds_add_iff (plan : BundlePlan) (a : Share) {b : Share} (real : b ≠ .nothing) :
    (plan.add a).Holds b ↔ a.Alike b ∨ plan.Holds b := by
  have sources := @exists_addNew_iff _ _ ArchiveSource.same ArchiveSource.key
    (fun _ _ => ArchiveSource.same_iff) _
  have paths := @exists_addNew_iff _ _ Path.same components (fun _ _ => Path.same_iff) _
  cases a <;> cases b <;> simp_all [add, Holds, Share.Alike]

theorem holds_foldl_add_iff (plan : BundlePlan) (as : List Share) {b : Share}
    (real : b ≠ .nothing) :
    (as.foldl add plan).Holds b ↔ (∃ a ∈ as, a.Alike b) ∨ plan.Holds b := by
  induction as generalizing plan with
  | nil => simp
  | cons a as ih =>
    rw [List.foldl_cons, ih, holds_add_iff plan a real, List.exists_mem_cons_iff, or_left_comm,
      or_assoc]

/-- A plan holds the shares of the paths that are left to be planned. -/
theorem holds_iff_ordered (ps : List Path) {b : Share} (real : b ≠ .nothing) :
    (ofDependencies h ps).Holds b ↔ ∃ p ∈ ordered ps, (share h p).Alike b := by
  have start : ¬({} : BundlePlan).Holds b := by
    cases b <;> simp [Holds]
  rw [ofDependencies, holds_foldl_add_iff _ _ real, or_iff_left start]
  simp [ordered]

/-- A plan holds exactly the shares of its dependencies. -/
theorem holds_ofDependencies_iff (sensitive : h.caseInsensitive = false) (ps : List Path)
    {b : Share} (real : b ≠ .nothing) :
    (ofDependencies h ps).Holds b ↔ ∃ p ∈ ps, (share h p).Alike b := by
  rw [holds_iff_ordered ps real]
  constructor
  · rintro ⟨p, hp, alike⟩
    exact ⟨p, mem_of_mem_ordered hp, alike⟩
  · rintro ⟨p, hp, alike⟩
    obtain ⟨q, hq, same⟩ := exists_same_ordered hp
    have back : q.same p = true := Path.same_iff.mpr (Path.same_iff.mp same).symm
    exact ⟨q, hq, (share_alike sensitive back).trans alike⟩

/-- A plan has exactly the entries that its dependencies call for, up to the spelling of paths. -/
structure Exact (h : Layout) (ps : List Path) (plan : BundlePlan) : Prop where
  files : ∀ s : ArchiveSource, (∃ f ∈ plan.files, f.same s = true) ↔
    ∃ p ∈ ps, p.same s.path = true ∧
      ∃ kind, kind.isArchived = true ∧ h.Places p kind [s.name]
  folders : ∀ s : ArchiveSource, (∃ f ∈ plan.folders, f.same s = true) ↔
    ∃ p ∈ ps, ∃ kind next rest, kind.isArchived = true ∧
      h.Places p kind (s.name :: next :: rest) ∧ ((h.root kind).child s.name).same s.path = true
  native : ∀ q : Path, (∃ p ∈ plan.native, p.same q = true) ↔
    ∃ p ∈ ps, p.same q = true ∧ h.classify? p = some .native

theorem ofDependencies_exact (sensitive : h.caseInsensitive = false) (ps : List Path) :
    Exact h ps (ofDependencies h ps) where
  files s := by
    refine (holds_ofDependencies_iff sensitive ps (b := .file s) nofun).trans ?_
    simp only [share_alike_file_iff]
  folders s := by
    refine (holds_ofDependencies_iff sensitive ps (b := .folder s) nofun).trans ?_
    simp only [share_alike_folder_iff]
  native q := by
    refine (holds_ofDependencies_iff sensitive ps (b := .library q) nofun).trans ?_
    simp only [share_alike_library_iff]

/-- On a host that tells paths apart by case, the plan depends on which paths are dependencies, not
on their order, repetition or spelling, and it has exactly the entries that these call for. -/
theorem plan_of_paths (sensitive : h.caseInsensitive = false) {ps qs : List Path}
    (same : SamePaths ps qs) :
    (ofDependencies h ps).Alike (ofDependencies h qs) ∧ Exact h ps (ofDependencies h ps) :=
  ⟨ofDependencies_alike sensitive same, ofDependencies_exact sensitive ps⟩

/-- An installation in the directory `inst`. -/
def installed : Layout :=
  .posix ⟨"inst".toList⟩ "3.11".toList ".so".toList

/-- A file of a package, a top-level file and a native library. -/
def traced : List Path :=
  ["inst/lib/python3.11/site-packages/pkg/a.py", "inst/lib/python3.11/abc.py",
    "inst/lib/python3.11/lib-dynload/_x.so"].map fun p => ⟨p.toList⟩

/-- The paths of `traced` in another order and spelling, one of them twice. -/
def respelled : List Path :=
  ["inst/lib/python3.11/lib-dynload/./_x.so", "inst//lib/python3.11/abc.py",
    "inst/lib/python3.11/site-packages/pkg/a.py/", "inst/lib/python3.11/abc.py"].map
    fun p => ⟨p.toList⟩

theorem plan_of_paths_respelled :
    (ofDependencies installed traced).Alike (ofDependencies installed respelled) ∧
      Exact installed traced (ofDependencies installed traced) :=
  plan_of_paths rfl (by decide +kernel)

end BundlePlan

end NativeFreeze
