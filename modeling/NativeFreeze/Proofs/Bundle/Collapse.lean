import Mathlib.Data.List.DropRight
import Mathlib.Data.List.Pairwise
import NativeFreeze.Proofs.Bundle.Entries
import NativeFreeze.Proofs.Layout.Spelling
import NativeFreeze.Proofs.Path.Components

/-!
# Entries that differ in spelling

A plan takes dependencies for the same by their components, also on a host that takes paths for equal up
to case and separators. So there a plan has two entries for one file exactly if the file is traced in two
spellings, and two for one folder exactly if the files in it spell its name in two ways: the rest of a
folder's path is taken from the layout, and of subtrees whose roots are the same up to spelling only the
one that is tried first has files.
-/

namespace NativeFreeze

open NativeFreeze.Path

variable {h : Layout} {p q root root' : Path} {ps : List Path} {kind kind' : Subtree} {s t : Text}
  {segments : List Text} {f g : ArchiveSource} {plan : BundlePlan}

/-! ## Paths of folders -/

namespace Path

/-- The last piece of a text is cut off behind the last separator. -/
theorem rdropWhile_append_piece {front piece : Text} (whole : '/' ∉ piece)
    (ends : front = [] ∨ front.getLast? = some '/') :
    (front ++ piece).rdropWhile (· != '/') = front := by
  have last : ∀ c ∈ piece.reverse, (c != '/') = true := by
    intro c hc
    simp only [bne_iff_ne]
    rintro rfl
    exact whole (List.mem_reverse.mp hc)
  rw [List.rdropWhile, List.reverse_append, List.dropWhile_append_of_pos last]
  rcases ends with rfl | slash
  · rfl
  · obtain ⟨back, rfl⟩ := List.getLast?_eq_some_iff.mp slash
    simp

/-- A text that names an entry on a host with two separators. -/
structure IsPiece (s : Text) : Prop where
  full : s ≠ []
  whole : '/' ∉ s
  straight : '\\' ∉ s

theorem IsPiece.relative (piece : IsPiece s) : isAbsolute ⟨s⟩ = false := by
  cases s with
  | nil => exact absurd rfl piece.full
  | cons c r =>
    have slash : c ≠ '/' := by
      rintro rfl
      exact piece.whole List.mem_cons_self
    simpa [isAbsolute] using slash

theorem IsPiece.slashed_eq (piece : IsPiece s) : slashed s = s := by
  refine (List.map_congr_left fun c hc => ?_).trans (List.map_id s)
  refine if_neg ?_
  rintro rfl
  exact piece.straight hc

/-- As texts are compared, an entry is its name behind a separator and what is left of the directory
without separators at its end. -/
theorem exists_lower_child (root : Path) : ∃ front : Text, (front = [] ∨ front.getLast? = some '/') ∧
    Text.trimEnd (· == '/') front = Text.lower (Layout.headOf root) ∧
    ∀ s, IsPiece s → Text.lower (slashed (root.child s).text) = front ++ Text.lower s := by
  obtain ⟨front, own, ends, text⟩ := exists_child_text root
  refine ⟨Text.lower (slashed front), ?_, ?_, fun s piece => ?_⟩
  · rcases ends with rfl | slash
    · exact .inl rfl
    · obtain ⟨back, rfl⟩ := List.getLast?_eq_some_iff.mp slash
      right
      simp [slashed, Text.lower]
  · rw [Text.trimEnd_lower rfl, Layout.headOf]
    rcases own with rfl | rfl
    · rfl
    · simp [slashed, Text.trimEnd]
  · rw [text s piece.relative, slashed, List.map_append, Text.lower_append]
    exact congrArg (_ ++ Text.lower ·) piece.slashed_eq

/-- Entries of two directories are the same up to spelling only if the directories and the names are. -/
theorem lower_of_respells_child (first : IsPiece s) (second : IsPiece t)
    (alike : (root.child s).Respells (root'.child t)) :
    Text.lower (Layout.headOf root) = Text.lower (Layout.headOf root') ∧
      Text.lower s = Text.lower t := by
  have free {s : Text} (piece : IsPiece s) : '/' ∉ Text.lower s := by
    intro mem
    obtain ⟨c, hc, low⟩ := List.mem_map.mp mem
    exact piece.whole ((Text.toLower_eq_iff rfl).mp low ▸ hc)
  obtain ⟨front, ends, head, text⟩ := exists_lower_child root
  obtain ⟨front', ends', head', text'⟩ := exists_lower_child root'
  have whole : front ++ Text.lower s = front' ++ Text.lower t :=
    (text s first).symm.trans (alike.trans (text' t second))
  have fronts : front = front' := by
    rw [← rdropWhile_append_piece (free first) ends, whole,
      rdropWhile_append_piece (free second) ends']
  subst fronts
  exact ⟨head.symm.trans head', List.append_cancel_left whole⟩

theorem respells_child (root : Path) (first : IsPiece s) (second : IsPiece t)
    (same : Text.lower s = Text.lower t) : (root.child s).Respells (root.child t) := by
  obtain ⟨front, -, -, text⟩ := exists_lower_child root
  rw [Respells, text s first, text t second, same]

end Path

/-! ## Where respelled paths fall -/

namespace Layout

theorem isPiece_of_segmentsFolded? (below : segmentsFolded? p root = some segments)
    (hs : s ∈ segments) : IsPiece s := by
  obtain ⟨rest, ⟨⟨front, text, -, -⟩, -⟩, rfl⟩ := segmentsFolded?_eq_some_iff.mp below
  obtain ⟨piece, full⟩ := List.mem_filter.mp hs
  refine ⟨by simpa using full, Text.not_mem_of_mem_split piece, fun mem => ?_⟩
  have inside : '\\' ∈ rest.filter (· != '/') := by
    rw [← Text.flatten_split]
    exact List.mem_flatten_of_mem piece mem
  have slash : '\\' ∈ slashed p.text := by
    rw [text]
    exact List.mem_append_right _ (List.mem_filter.mp inside).1
  obtain ⟨c, -, turned⟩ := List.mem_map.mp slash
  split at turned <;> simp_all

theorem Places.isPiece (folds : h.caseInsensitive = true) (placed : h.Places p kind segments)
    (hs : s ∈ segments) : IsPiece s := by
  have below := placed.below
  rw [segmentsBelow?, if_pos folds] at below
  exact isPiece_of_segmentsFolded? below hs

/-- What lies below a root lies below each whose text is the same up to spelling. -/
theorem isSome_segmentsFolded?_of_heads (heads : Text.lower (headOf root) = Text.lower (headOf root'))
    (below : (segmentsFolded? p root).isSome = true) : (segmentsFolded? p root').isSome = true := by
  obtain ⟨segments, found⟩ := Option.isSome_iff_exists.mp below
  obtain ⟨rest, sliced, -⟩ := segmentsFolded?_eq_some_iff.mp found
  obtain ⟨rest', sliced', -⟩ : ∃ rest', Sliced (headOf root') (slashed p.text) rest' ∧ _ :=
    sliced.respelled heads rfl
  exact Option.isSome_iff_exists.mpr ⟨_, segmentsFolded?_eq_some_iff.mpr ⟨rest', sliced', rfl⟩⟩

/-- Of two subtrees whose roots are the same up to spelling, only the one that is tried first has
files. -/
theorem eq_of_heads (folds : h.caseInsensitive = true) (first : h.classify? p = some kind)
    (second : h.classify? q = some kind')
    (heads : Text.lower (headOf (h.root kind)) = Text.lower (headOf (h.root kind'))) :
    kind = kind' := by
  have under {p : Path} {kind : Subtree} (found : h.classify? p = some kind) :
      (segmentsFolded? p (h.root kind)).isSome = true := by
    have here := List.find?_some (show Subtree.all.find? _ = some kind from found)
    simpa [segmentsBelow?, folds] using here
  have there : (segmentsFolded? p (h.root kind')).isSome = true :=
    isSome_segmentsFolded?_of_heads heads (under first)
  have back : (segmentsFolded? q (h.root kind)).isSome = true :=
    isSome_segmentsFolded?_of_heads heads.symm (under second)
  simp only [classify?, Subtree.all, segmentsBelow?, folds, if_true, List.find?_cons] at first second
  cases kind <;> cases kind' <;> simp_all
  case thirdParty.standard => split at second <;> cases second
  case standard.thirdParty => split at first <;> cases first

theorem Places.respelled (folds : h.caseInsensitive = true) (placed : h.Places p kind segments)
    (paths : p.Respells q) : ∃ segments', h.Places q kind segments' ∧ SameNames segments segments' := by
  have below := placed.below
  rw [segmentsBelow?, if_pos folds] at below
  obtain ⟨segments', found, same⟩ := exists_segmentsFolded? paths (.refl _) below
  refine ⟨segments', ⟨?_, ?_⟩, same⟩
  · have under : (fun kind => (h.segmentsBelow? q (h.root kind)).isSome) =
        fun kind => (h.segmentsBelow? p (h.root kind)).isSome := by
      funext kind
      simp only [segmentsBelow?, folds, if_true]
      exact (isSome_eq_of_rel (segmentsFolded?_respelled paths (.refl _))).symm
    rw [classify?, under]
    exact placed.classify
  · rw [segmentsBelow?, if_pos folds]
    exact found

end Layout

namespace BundlePlan

/-! ## Entries and what they come from -/

section AddNew
variable {α κ : Type} {same : α → α → Bool} {key : α → κ} {x y : α} {xs : List α}

theorem mem_addNew (hy : y ∈ addNew same x xs) : x = y ∨ y ∈ xs := by
  unfold addNew at hy
  split at hy
  · exact .inr hy
  · rcases List.mem_append.mp hy with old | new
    · exact .inr old
    · exact .inl (List.mem_singleton.mp new).symm

variable (told : ∀ x y, same x y = true ↔ key x = key y)
include told

theorem pairwise_addNew (x : α) (distinct : xs.Pairwise fun a b => same a b = false) :
    (addNew same x xs).Pairwise fun a b => same a b = false := by
  unfold addNew
  split
  · exact distinct
  · rename_i new
    refine List.pairwise_append.mpr ⟨distinct, List.pairwise_singleton _ x, fun a ha b hb => ?_⟩
    obtain rfl := List.mem_singleton.mp hb
    rw [Bool.eq_false_iff]
    intro alike
    refine new (List.any_eq_true.mpr ⟨a, ha, ?_⟩)
    exact (told b a).mpr ((told a b).mp alike).symm

end AddNew

/-- In a list without repetitions, no two items are related exactly if those that are related are the
same. -/
theorem pairwise_not_iff {α : Type} (same : α → α → Bool) (R : α → α → Prop) {xs : List α}
    (refl : ∀ a, same a a = true) (symm : ∀ a b, R a b → R b a)
    (distinct : xs.Pairwise fun a b => same a b = false) :
    (xs.Pairwise fun a b => ¬R a b) ↔ ∀ a ∈ xs, ∀ b ∈ xs, R a b → same a b = true := by
  constructor
  · intro apart a ha b hb related
    by_cases eq : a = b
    · exact eq ▸ refl a
    · have symmetric : Std.Symm fun a b => ¬R a b := ⟨fun a b no yes => no (symm b a yes)⟩
      exact absurd related (apart.forall ha hb eq)
  · intro all
    refine distinct.imp_of_mem fun ha hb differ related => ?_
    simp [all _ ha _ hb related] at differ


/-- A plan has the entry of a share as it is. -/
def Has (plan : BundlePlan) : Share → Prop
  | .nothing => False
  | .file f => f ∈ plan.files
  | .folder f => f ∈ plan.folders
  | .library p => p ∈ plan.native

theorem has_of_has_add {a b : Share} (has : (plan.add a).Has b) : a = b ∨ plan.Has b := by
  cases a <;> cases b <;> simp only [add, Has, Share.file.injEq, Share.folder.injEq,
    Share.library.injEq, reduceCtorEq, false_or] at has ⊢
  all_goals first | exact has | exact mem_addNew has

/-- Every entry is the share of a path that is planned. -/
theorem exists_of_has {b : Share} (has : (ofDependencies h ps).Has b) :
    ∃ p ∈ ordered ps, share h p = b := by
  have run (as : List Share) (plan : BundlePlan) (has : (as.foldl add plan).Has b) :
      b ∈ as ∨ plan.Has b := by
    induction as generalizing plan with
    | nil => exact .inr has
    | cons a as ih =>
      rcases ih _ has with later | now
      · exact .inl (List.mem_cons_of_mem a later)
      · rcases has_of_has_add now with rfl | before
        · exact .inl List.mem_cons_self
        · exact .inr before
  rcases run _ _ has with shared | start
  · obtain ⟨p, hp, eq⟩ := List.mem_map.mp shared
    exact ⟨p, hp, eq⟩
  · cases b <;> simp [Has] at start

/-- The entries of a plan are told apart by their components and names. -/
structure Distinct (plan : BundlePlan) : Prop where
  files : plan.files.Pairwise fun f g => f.same g = false
  folders : plan.folders.Pairwise fun f g => f.same g = false
  native : plan.native.Pairwise fun p q => p.same q = false

theorem Distinct.add (distinct : plan.Distinct) (a : Share) : (plan.add a).Distinct := by
  obtain ⟨files, folders, native⟩ := distinct
  have sources := @pairwise_addNew _ _ ArchiveSource.same ArchiveSource.key
  have paths := @pairwise_addNew _ _ Path.same components
  cases a with
  | nothing => exact ⟨files, folders, native⟩
  | file f => exact ⟨sources (fun _ _ => ArchiveSource.same_iff) f files, folders, native⟩
  | folder f => exact ⟨files, sources (fun _ _ => ArchiveSource.same_iff) f folders, native⟩
  | library p => exact ⟨files, folders, paths (fun _ _ => Path.same_iff) p native⟩

theorem distinct_ofDependencies (h : Layout) (ps : List Path) : (ofDependencies h ps).Distinct := by
  have run (as : List Share) (plan : BundlePlan) (distinct : plan.Distinct) :
      (as.foldl add plan).Distinct := by
    induction as generalizing plan with
    | nil => exact distinct
    | cons a as ih => exact ih _ (distinct.add a)
  exact run _ _ ⟨.nil, .nil, .nil⟩

theorem eq_of_same_ordered (hp : p ∈ ordered ps) (hq : q ∈ ordered ps) (same : p.same q = true) :
    p = q := by
  by_contra differ
  have apart : (ordered ps).Pairwise fun p q => p.same q = false := by
    refine (pairwise_lastOfEqual (pairwise_sort ps)).imp fun {a b} lt => ?_
    rw [Bool.eq_false_iff]
    intro alike
    simp [compare_eq_iff.mpr alike] at lt
  have symmetric : Std.Symm fun p q : Path => p.same q = false :=
    ⟨fun p q no => (same_comm q p).trans no⟩
  have no := apart.forall hp hq differ
  simp [same] at no

/-- The files of a plan are planned paths, each with its own share. -/
theorem mem_files_iff : f ∈ (ofDependencies h ps).files ↔
    f.path ∈ ordered ps ∧ share h f.path = .file f := by
  have own {f : ArchiveSource} (hf : f ∈ (ofDependencies h ps).files) :
      f.path ∈ ordered ps ∧ share h f.path = .file f := by
    obtain ⟨p, hp, shared⟩ := exists_of_has (b := .file f) hf
    obtain ⟨rfl, -⟩ := share_eq_file_iff.mp shared
    exact ⟨hp, shared⟩
  refine ⟨own, fun ⟨hp, shared⟩ => ?_⟩
  obtain ⟨g, hg, same⟩ : (ofDependencies h ps).Holds (.file f) :=
    shared ▸ holds_of_mem_ordered hp (shared ▸ nofun)
  obtain ⟨hq, other⟩ := own hg
  have path : g.path = f.path := eq_of_same_ordered hq hp (ArchiveSource.same_iff_and.mp same).1
  have eq : g = f := Share.file.inj (other.symm.trans (path ▸ shared))
  exact eq ▸ hg

/-- The libraries of a plan are planned paths that fall under the native subtree. -/
theorem mem_native_iff : q ∈ (ofDependencies h ps).native ↔
    q ∈ ordered ps ∧ h.classify? q = some .native := by
  have own {q : Path} (hq : q ∈ (ofDependencies h ps).native) :
      q ∈ ordered ps ∧ h.classify? q = some .native := by
    obtain ⟨p, hp, shared⟩ := exists_of_has (b := .library q) hq
    obtain ⟨rfl, native⟩ := share_eq_library_iff.mp shared
    exact ⟨hp, native⟩
  refine ⟨own, fun ⟨hq, native⟩ => ?_⟩
  have shared : share h q = .library q := share_eq_library_iff.mpr ⟨rfl, native⟩
  obtain ⟨r, hr, same⟩ : (ofDependencies h ps).Holds (.library q) :=
    shared ▸ holds_of_mem_ordered hq (shared ▸ nofun)
  exact eq_of_same_ordered (own hr).1 hq same ▸ hr

/-- The folders of a plan are named after what comes first below the root of an archived subtree. -/
theorem exists_of_mem_folders (hf : f ∈ (ofDependencies h ps).folders) :
    ∃ p kind segments, h.Places p kind (f.name :: segments) ∧
      f.path = (h.root kind).child f.name := by
  obtain ⟨p, -, shared⟩ := exists_of_has (b := .folder f) hf
  obtain ⟨kind, next, rest, -, placed, path⟩ := share_eq_folder_iff.mp shared
  exact ⟨p, kind, next :: rest, placed, path⟩

/-! ## Plans on hosts that take paths for equal up to spelling -/

/-- No two entries of a plan are the same up to case and separators. -/
structure Collapsed (plan : BundlePlan) : Prop where
  files : plan.files.Pairwise fun f g => ¬f.path.Respells g.path
  folders : plan.folders.Pairwise fun f g => ¬f.path.Respells g.path
  native : plan.native.Pairwise fun p q => ¬p.Respells q

theorem exists_file_of_respells (folds : h.caseInsensitive = true) (shared : share h p = .file f)
    (paths : p.Respells q) : ∃ g : ArchiveSource, g.path = q ∧ share h q = .file g := by
  obtain ⟨-, kind, archived, placed⟩ := share_eq_file_iff.mp shared
  obtain ⟨segments, placed', same⟩ := placed.respelled folds paths
  obtain ⟨name, rfl⟩ : ∃ name, segments = [name] := by
    rw [← List.length_eq_one_iff]
    exact (List.Forall₂.length_eq same).symm
  exact ⟨⟨q, name⟩, rfl, share_eq_file_iff.mpr ⟨rfl, kind, archived, placed'⟩⟩

theorem classify?_of_respells (folds : h.caseInsensitive = true) (found : h.classify? p = some kind)
    (paths : p.Respells q) : h.classify? q = some kind := by
  have under := List.find?_some (show Subtree.all.find? _ = some kind from found)
  obtain ⟨segments, below⟩ := Option.isSome_iff_exists.mp under
  obtain ⟨_, placed, -⟩ := Layout.Places.respelled folds ⟨found, below⟩ paths
  exact placed.classify

theorem sources_pairwise_iff {fs : List ArchiveSource}
    (distinct : fs.Pairwise fun f g => f.same g = false) :
    (fs.Pairwise fun f g => ¬f.path.Respells g.path) ↔
      ∀ f ∈ fs, ∀ g ∈ fs, f.path.Respells g.path → f.same g = true :=
  pairwise_not_iff ArchiveSource.same (fun f g => f.path.Respells g.path)
    (fun _ => ArchiveSource.same_iff.mpr rfl) (fun _ _ => Respells.symm) distinct

theorem files_pairwise_iff (folds : h.caseInsensitive = true) (ps : List Path) :
    ((ofDependencies h ps).files.Pairwise fun f g => ¬f.path.Respells g.path) ↔
      ∀ p ∈ ordered ps, ∀ q ∈ ordered ps, ∀ f, share h p = .file f → p.Respells q → p = q := by
  rw [sources_pairwise_iff (distinct_ofDependencies h ps).files]
  constructor
  · intro told p hp q hq f shared alike
    obtain ⟨rfl, -⟩ := share_eq_file_iff.mp shared
    obtain ⟨g, rfl, shared'⟩ := exists_file_of_respells folds shared alike
    have same : f.same g = true :=
      told f (mem_files_iff.mpr ⟨hp, shared⟩) g (mem_files_iff.mpr ⟨hq, shared'⟩) alike
    exact eq_of_same_ordered hp hq (ArchiveSource.same_iff_and.mp same).1
  · intro told f hf g hg alike
    obtain ⟨hp, shared⟩ := mem_files_iff.mp hf
    obtain ⟨hq, shared'⟩ := mem_files_iff.mp hg
    have path : f.path = g.path := told _ hp _ hq f shared alike
    have eq : f = g := Share.file.inj (shared.symm.trans (path ▸ shared'))
    exact ArchiveSource.same_iff.mpr (congrArg _ eq)

theorem native_pairwise_iff (folds : h.caseInsensitive = true) (ps : List Path) :
    ((ofDependencies h ps).native.Pairwise fun p q => ¬p.Respells q) ↔
      ∀ p ∈ ordered ps, ∀ q ∈ ordered ps, h.classify? p = some .native → p.Respells q → p = q := by
  rw [pairwise_not_iff Path.same Respells same_refl (fun _ _ => Respells.symm)
    (distinct_ofDependencies h ps).native]
  constructor
  · intro told p hp q hq found alike
    have found' : h.classify? q = some .native := classify?_of_respells folds found alike
    have same : p.same q = true :=
      told p (mem_native_iff.mpr ⟨hp, found⟩) q (mem_native_iff.mpr ⟨hq, found'⟩) alike
    exact eq_of_same_ordered hp hq same
  · intro told p hp q hq alike
    obtain ⟨planned, found⟩ := mem_native_iff.mp hp
    obtain rfl := told p planned q (mem_native_iff.mp hq).1 found alike
    exact same_refl p

/-- Folders of one subtree are the same up to spelling if their names are the same up to case, and
folders of two subtrees are not. -/
theorem folders_pairwise_iff (folds : h.caseInsensitive = true) (ps : List Path) :
    ((ofDependencies h ps).folders.Pairwise fun f g => ¬f.path.Respells g.path) ↔
      ∀ f ∈ (ofDependencies h ps).folders, ∀ g ∈ (ofDependencies h ps).folders,
        (∃ kind, f.path = (h.root kind).child f.name ∧ g.path = (h.root kind).child g.name) →
          Text.lower f.name = Text.lower g.name → f.name = g.name := by
  rw [sources_pairwise_iff (distinct_ofDependencies h ps).folders]
  refine forall₂_congr fun f hf => forall₂_congr fun g hg => ?_
  obtain ⟨p, kind, _, placed, top⟩ := exists_of_mem_folders hf
  obtain ⟨q, kind', _, placed', top'⟩ := exists_of_mem_folders hg
  have piece : IsPiece f.name := placed.isPiece folds List.mem_cons_self
  have piece' : IsPiece g.name := placed'.isPiece folds List.mem_cons_self
  constructor
  · rintro told ⟨_, here, here'⟩ names
    have alike : f.path.Respells g.path := by
      rw [here, here']
      exact respells_child _ piece piece' names
    exact (ArchiveSource.same_iff_and.mp (told alike)).2
  · intro told alike
    rw [top, top'] at alike
    obtain ⟨heads, names⟩ := lower_of_respells_child piece piece' alike
    obtain rfl : kind = kind' := Layout.eq_of_heads folds placed.classify placed'.classify heads
    have name : f.name = g.name := told ⟨kind, top, top'⟩ names
    rw [ArchiveSource.same_iff_and, top, top', name]
    exact ⟨same_refl _, rfl⟩

/-- On a host that takes paths for equal up to case and separators, no two entries of a plan are the same
exactly if each of these holds: a file directly below the root of an archived subtree is planned in one
spelling, so is a native library, and folders of one subtree have names that do not differ in case
alone. -/
theorem collapsed_iff (folds : h.caseInsensitive = true) (ps : List Path) :
    (ofDependencies h ps).Collapsed ↔
      (∀ p ∈ ordered ps, ∀ q ∈ ordered ps, ∀ f, share h p = .file f → p.Respells q → p = q) ∧
      (∀ p ∈ ordered ps, ∀ q ∈ ordered ps, h.classify? p = some .native → p.Respells q → p = q) ∧
      ∀ f ∈ (ofDependencies h ps).folders, ∀ g ∈ (ofDependencies h ps).folders,
        (∃ kind, f.path = (h.root kind).child f.name ∧ g.path = (h.root kind).child g.name) →
          Text.lower f.name = Text.lower g.name → f.name = g.name := by
  rw [← files_pairwise_iff folds, ← native_pairwise_iff folds, ← folders_pairwise_iff folds]
  constructor
  · rintro ⟨files, folders, native⟩
    exact ⟨files, native, folders⟩
  · rintro ⟨files, native, folders⟩
    exact ⟨files, folders, native⟩

/-- An installation on Windows. -/
def python39 : Layout :=
  .windows ⟨"C:\\Python39".toList⟩ "3.9".toList

/-- A script, a library and two modules of a package, each in one spelling. -/
def uniform : List Path :=
  ["C:\\Python39\\lib\\stat.py", "C:\\Python39\\DLLs\\_socket.pyd",
    "C:\\Python39\\lib\\site-packages\\six\\moves.py",
    "c:/python39/Lib/site-packages/six/util.py"].map fun p => ⟨p.toList⟩

theorem collapsed_iff_uniform :
    python39.caseInsensitive = true ∧ (ofDependencies python39 uniform).Collapsed := by
  have once : ∀ p ∈ uniform, ∀ q ∈ uniform, p.Respells q → p = q := by decide +kernel
  have shares : ∀ p ∈ uniform, share python39 p = .file ⟨p, "stat.py".toList⟩ ∨
      share python39 p = .library p ∨
      share python39 p = .folder ⟨python39.sitePackagesDir.child "six".toList, "six".toList⟩ := by
    decide +kernel
  have six : ∀ f ∈ (ofDependencies python39 uniform).folders, f.name = "six".toList := by
    intro f hf
    obtain ⟨p, hp, shared⟩ := exists_of_has (b := .folder f) hf
    rcases shares p (mem_of_mem_ordered hp) with file | library | folder
    · cases file.symm.trans shared
    · cases library.symm.trans shared
    · obtain rfl := Share.folder.inj (folder.symm.trans shared)
      rfl
  refine ⟨rfl, (collapsed_iff rfl uniform).mpr ⟨?_, ?_, ?_⟩⟩
  · exact fun p hp q hq _ _ => once p (mem_of_mem_ordered hp) q (mem_of_mem_ordered hq)
  · exact fun p hp q hq _ => once p (mem_of_mem_ordered hp) q (mem_of_mem_ordered hq)
  · exact fun f hf g hg _ _ => (six f hf).trans (six g hg).symm

/-- A script, and the same one in another spelling. -/
def script : Path :=
  ⟨"C:\\Python39\\lib\\stat.py".toList⟩

def scriptRespelled : Path :=
  ⟨"c:\\python39\\Lib\\stat.py".toList⟩

/-- Both have an entry. -/
theorem not_collapsed_respelled : python39.caseInsensitive = true ∧
    ¬(ofDependencies python39 [script, scriptRespelled]).Collapsed := by
  refine ⟨rfl, fun collapsed => ?_⟩
  have first : script ∈ ordered ([] ++ script :: [scriptRespelled]) :=
    mem_ordered_of_last (by decide +kernel)
  have second : scriptRespelled ∈ ordered ([script] ++ scriptRespelled :: []) :=
    mem_ordered_of_last (List.forall_mem_nil _)
  have shared : share python39 script = .file ⟨script, "stat.py".toList⟩ := by decide +kernel
  have eq : script = scriptRespelled := (files_pairwise_iff rfl _).mp collapsed.files _ first _ second
    _ shared (by decide +kernel)
  exact absurd eq (by decide +kernel)

end BundlePlan

end NativeFreeze
