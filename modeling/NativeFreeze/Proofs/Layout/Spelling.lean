import Mathlib.Data.List.Forall2
import NativeFreeze.Layout.Basic
import NativeFreeze.Proofs.Text.Lower

/-!
# Classification up to spelling

On a host that takes paths for equal up to ASCII case and the kind of their separators, a path is sliced
where the root ends, counted in bytes. What is in front of the slice spells the root, so the slice falls
between two characters, and another spelling of the path or of the root is sliced at the same place. So
spelling decides neither the subtree that a path falls under nor, up to case, its names below a root.
-/

namespace NativeFreeze

namespace Path

/-- Two paths are equal after lowering ASCII capitals and turning every `\` into `/`. -/
def Respells (p q : Path) : Prop :=
  Text.lower (slashed p.text) = Text.lower (slashed q.text)

instance (p q : Path) : Decidable (p.Respells q) :=
  inferInstanceAs (Decidable (_ = _))

theorem Respells.refl (p : Path) : p.Respells p := rfl

theorem Respells.symm {p q : Path} (h : p.Respells q) : q.Respells p := Eq.symm h

end Path

open NativeFreeze.Path

namespace Layout

variable {h h' : Layout} {p q root root' : Path} {head head' path path' rest : Text}
  {segments : List Text}

/-! ## Slices -/

/-- A path text goes on with `rest` behind as many bytes as `head` has, which spell `head`; and nothing
or a separator is next. -/
structure Sliced (head path rest : Text) : Prop where
  cut : ∃ front, path = front ++ rest ∧ front.bytes.length = head.bytes.length ∧
    Text.lower front = Text.lower head
  next : rest = [] ∨ rest.head? = some '/'

theorem afterFolded?_eq_some_iff : afterFolded? head path = some rest ↔
    ∃ front, path = front ++ rest ∧ Text.lower front = Text.lower head := by
  induction head generalizing path with
  | nil => simp [afterFolded?, Text.lower, eq_comm]
  | cons c head ih =>
    rw [afterFolded?.eq_def]
    cases path with
    | nil => simp [Text.lower]
    | cons d path =>
      by_cases same : c.toLower = d.toLower
      · simp only [same, if_true, ih]
        constructor
        · rintro ⟨front, rfl, spelled⟩
          exact ⟨d :: front, rfl, by simp [spelled, same]⟩
        · rintro ⟨front, whole, spelled⟩
          cases front with
          | nil => simp at spelled
          | cons e front =>
            obtain ⟨rfl, rfl⟩ := List.cons.inj whole
            exact ⟨front, rfl, (List.cons.inj spelled).2⟩
      · simp only [if_neg same, reduceCtorEq, false_iff, not_exists, not_and]
        intro front whole spelled
        cases front with
        | nil => simp at spelled
        | cons e front =>
          obtain ⟨rfl, rfl⟩ := List.cons.inj whole
          exact same (List.cons.inj spelled).1.symm

/-- The names between the separators of a text. -/
def namesIn (s : Text) : List Text :=
  (Text.split '/' s).filter fun piece => !piece.isEmpty

theorem namesIn_slash (s : Text) : namesIn ('/' :: s) = namesIn s := by
  simp [namesIn, Text.split, Text.splitOn]

theorem namesIn_lower (s : Text) : namesIn (Text.lower s) = (namesIn s).map Text.lower := by
  have full (piece : Text) : (Text.lower piece).isEmpty = piece.isEmpty := by
    cases piece <;> rfl
  simp [namesIn, Text.split_lower, List.filter_map, Function.comp_def, full]

/-- The root of a comparison: slashed, and without separators at its end. -/
def headOf (root : Path) : Text :=
  Text.trimEnd (· == '/') (slashed root.text)

/-- Names are found below a root exactly by slicing the path where the root ends. -/
theorem segmentsFolded?_eq_some_iff : segmentsFolded? p root = some segments ↔
    ∃ rest, Sliced (headOf root) (slashed p.text) rest ∧ segments = namesIn rest := by
  have cut (rest : Text) : afterFolded? (headOf root) (slashed p.text) = some rest ↔
      ∃ front, slashed p.text = front ++ rest ∧ front.bytes.length = (headOf root).bytes.length ∧
        Text.lower front = Text.lower (headOf root) := by
    rw [afterFolded?_eq_some_iff]
    apply exists_congr
    intro front
    exact and_congr_right fun _ =>
      ⟨fun spelled => ⟨Text.length_bytes_of_lower spelled, spelled⟩, And.right⟩
  constructor
  · intro found
    unfold segmentsFolded? at found
    split at found
    · cases found
    · rename_i after
      exact ⟨[], ⟨(cut []).mp after, .inl rfl⟩, (Option.some.inj found).symm⟩
    · rename_i rest after
      refine ⟨'/' :: rest, ⟨(cut _).mp after, .inr rfl⟩, ?_⟩
      rw [namesIn_slash]
      exact (Option.some.inj found).symm
    · cases found
  · rintro ⟨rest, sliced, rfl⟩
    have after : afterFolded? (headOf root) (slashed p.text) = some rest := (cut rest).mpr sliced.cut
    rw [headOf] at after
    rw [segmentsFolded?, after]
    cases rest with
    | nil => rfl
    | cons c rest =>
      obtain rfl : c = '/' := by simpa using sliced.next
      rw [namesIn_slash]
      rfl

/-! ## Other spellings -/

theorem lower_headOf (roots : root.Respells root') :
    Text.lower (headOf root) = Text.lower (headOf root') := by
  rw [headOf, headOf, ← Text.trimEnd_lower rfl, ← Text.trimEnd_lower rfl, roots]

/-- A respelled path is sliced by a respelled root where the path was sliced by the root. -/
theorem Sliced.respelled (sliced : Sliced head path rest) (heads : Text.lower head = Text.lower head')
    (paths : Text.lower path = Text.lower path') :
    ∃ rest', Sliced head' path' rest' ∧ Text.lower rest' = Text.lower rest := by
  obtain ⟨front, rfl, -, spelled⟩ := sliced.cut
  obtain ⟨front', rest', rfl, fronts, rests⟩ := Text.exists_append_of_lower paths.symm
  have spelled' : Text.lower front' = Text.lower head' := fronts.trans (spelled.trans heads)
  refine ⟨rest', ⟨⟨front', rfl, Text.length_bytes_of_lower spelled', spelled'⟩, ?_⟩, rests⟩
  rcases sliced.next with rfl | next
  · exact .inl (List.map_eq_nil_iff.mp rests)
  · obtain ⟨c, more, rfl, slash⟩ : ∃ c more, rest = c :: more ∧ c = '/' := by
      cases rest <;> simp_all
    obtain ⟨c', more', rfl, same, -⟩ := List.map_eq_cons_iff.mp rests
    rw [slash] at same
    exact .inr (congrArg some ((Text.toLower_eq_iff rfl).mp same))

/-- Lists of names that are as long as each other and equal name by name up to case. -/
def SameNames : List Text → List Text → Prop :=
  List.Forall₂ fun s t => Text.lower s = Text.lower t

theorem sameNames_iff {names names' : List Text} :
    SameNames names names' ↔ names.map Text.lower = names'.map Text.lower := by
  rw [SameNames, ← @List.forall₂_eq_eq_eq Text, List.forall₂_map_left_iff,
    List.forall₂_map_right_iff]

theorem isSome_eq_of_rel {α : Type} {R : α → α → Prop} {a b : Option α} (related : Option.Rel R a b) :
    a.isSome = b.isSome := by
  cases related <;> rfl

/-- Names that are found below a root are found, up to case, in every spelling. -/
theorem exists_segmentsFolded? (paths : p.Respells q) (roots : root.Respells root')
    (found : segmentsFolded? p root = some segments) :
    ∃ segments', segmentsFolded? q root' = some segments' ∧ SameNames segments segments' := by
  obtain ⟨rest, sliced, rfl⟩ := segmentsFolded?_eq_some_iff.mp found
  obtain ⟨rest', sliced', same⟩ := sliced.respelled (lower_headOf roots) paths
  refine ⟨namesIn rest', segmentsFolded?_eq_some_iff.mpr ⟨rest', sliced', rfl⟩, ?_⟩
  rw [sameNames_iff, ← namesIn_lower, ← namesIn_lower, same]

theorem segmentsFolded?_respelled (paths : p.Respells q) (roots : root.Respells root') :
    Option.Rel SameNames (segmentsFolded? p root) (segmentsFolded? q root') := by
  cases found : segmentsFolded? p root with
  | some segments =>
    obtain ⟨segments', found', same⟩ := exists_segmentsFolded? paths roots found
    rw [found']
    exact .some same
  | none =>
    cases found' : segmentsFolded? q root' with
    | none => exact .none
    | some segments' =>
      obtain ⟨segments, other, -⟩ := exists_segmentsFolded? paths.symm roots.symm found'
      exact absurd (found.symm.trans other) nofun

/-- On a host that takes paths for equal up to case and separators, respelling a path or the roots
changes no classification, and it changes the names below a root in case only. -/
theorem classify?_respelled (folds : h.caseInsensitive = true) (folds' : h'.caseInsensitive = true)
    (subtrees : ∀ kind, (h.root kind).Respells (h'.root kind)) (paths : p.Respells q) :
    h.classify? p = h'.classify? q ∧
      ∀ root root' : Path, root.Respells root' →
        Option.Rel SameNames (h.segmentsBelow? p root) (h'.segmentsBelow? q root') := by
  have names {root root' : Path} (roots : root.Respells root') :
      Option.Rel SameNames (h.segmentsBelow? p root) (h'.segmentsBelow? q root') := by
    simp only [segmentsBelow?, folds, folds', if_true]
    exact segmentsFolded?_respelled paths roots
  refine ⟨?_, fun _ _ => names⟩
  have under : (fun kind => (h.segmentsBelow? p (h.root kind)).isSome) =
      fun kind => (h'.segmentsBelow? q (h'.root kind)).isSome := by
    funext kind
    exact isSome_eq_of_rel (names (subtrees kind))
  rw [classify?, classify?, under]

/-- An installation on Windows, and the same one in another spelling. -/
def drive : Layout :=
  .windows ⟨"C:\\Öl\\Python39".toList⟩ "3.9".toList

def driveRespelled : Layout :=
  .windows ⟨"c:/Öl/PYTHON39".toList⟩ "3.9".toList

theorem classify?_respelled_drive :
    drive.classify? ⟨"C:\\Öl\\Python39\\lib\\Stat.py".toList⟩ =
        driveRespelled.classify? ⟨"c:/Öl\\python39/LIB/stat.PY".toList⟩ ∧
      Option.Rel SameNames
        (drive.segmentsBelow? ⟨"C:\\Öl\\Python39\\lib\\Stat.py".toList⟩ ⟨"C:\\Öl\\".toList⟩)
        (driveRespelled.segmentsBelow? ⟨"c:/Öl\\python39/LIB/stat.PY".toList⟩ ⟨"c:/Öl/".toList⟩) := by
  have subtrees (kind : Subtree) : (drive.root kind).Respells (driveRespelled.root kind) := by
    cases kind <;> decide +kernel
  have respelled := classify?_respelled (show drive.caseInsensitive = true from rfl)
    (show driveRespelled.caseInsensitive = true from rfl) subtrees
    (show Path.Respells ⟨"C:\\Öl\\Python39\\lib\\Stat.py".toList⟩
      ⟨"c:/Öl\\python39/LIB/stat.PY".toList⟩ by decide +kernel)
  exact ⟨respelled.1, respelled.2 _ _ (by decide +kernel)⟩

end Layout

end NativeFreeze
