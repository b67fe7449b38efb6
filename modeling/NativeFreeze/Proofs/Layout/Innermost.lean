import NativeFreeze.Layout.Basic
import NativeFreeze.Proofs.Path.Components
import NativeFreeze.Proofs.Path.Order

/-!
# The innermost subtree

On a host that tells paths apart by case, the root of a subtree contains a path if the components of
the path start with those of the root, and the names below the root are the components that follow. A
path is tried against the roots in a fixed order. If the two that are tried first contain neither each
other nor the standard library, this order finds the longest of the roots that contain the path.
-/

namespace NativeFreeze

open NativeFreeze.Path

namespace Path

variable {p q r : Path} {segments : List Text}

/-- `q` is `p` or lies below it, component by component. -/
def Contains (p q : Path) : Prop :=
  p.components <+: q.components

instance (p q : Path) : Decidable (p.Contains q) :=
  inferInstanceAs (Decidable (_ <+: _))

/-- Of two paths that contain a third, one contains the other. -/
theorem Contains.total (hp : p.Contains r) (hq : q.Contains r) : p.Contains q ∨ q.Contains p :=
  List.prefix_or_prefix_of_prefix hp hq

/-- What contains a path without being contained in it is shorter. -/
theorem Contains.length_lt (hp : p.Contains q) (strict : ¬q.Contains p) :
    p.components.length < q.components.length := by
  apply Nat.lt_of_le_of_ne hp.length_le
  intro same
  have alike : p.components = q.components := hp.eq_of_length same
  apply strict
  unfold Contains
  exact alike ▸ List.prefix_rfl

theorem isSome_below?_iff : (p.below? q).isSome = true ↔ p.Contains q := by
  rw [Option.isSome_iff_exists]
  constructor
  · rintro ⟨rest, below⟩
    exact ⟨rest, (componentsAfter?_eq_some_iff.mp below).symm⟩
  · rintro ⟨rest, whole⟩
    exact ⟨rest, componentsAfter?_eq_some_iff.mpr whole.symm⟩

/-- The components of `q` below `p` have the texts `segments` exactly if `q` is what these lead to from
`p`, one after the other. -/
theorem map_text_below?_eq_some_iff (all : ∀ s ∈ segments, '/' ∉ s ∧ isIdle s = false) :
    (p.below? q).map (·.map Component.text) = some segments ↔
      q.same (segments.foldl child p) = true := by
  rw [same_iff, components_foldl_of_busy p all, Option.map_eq_some_iff]
  constructor
  · rintro ⟨rest, below, rfl⟩
    have whole : q.components = p.components ++ rest := componentsAfter?_eq_some_iff.mp below
    have told : ∀ c ∈ rest, component c.text = c := by
      intro c hc
      obtain ⟨single, busy⟩ := all c.text (List.mem_map_of_mem hc)
      apply component_text_of_mem (p := q) _ single busy
      simp [whole, hc]
    rw [whole, List.map_map]
    apply congrArg (p.components ++ ·)
    exact ((List.map_congr_left told).trans (List.map_id rest)).symm
  · intro whole
    have texts : (segments.map component).map Component.text = segments := by
      simp [Function.comp_def, component_text]
    exact ⟨_, componentsAfter?_eq_some_iff.mpr whole, texts⟩

end Path

namespace Layout

variable {h : Layout} {p root : Path} {kind other : Subtree}

/-! ## What contains a path -/

theorem isSome_segmentsBelow?_iff (sensitive : h.caseInsensitive = false) :
    (h.segmentsBelow? p root).isSome = true ↔ root.Contains p := by
  simp [segmentsBelow?, sensitive, isSome_below?_iff]

theorem classify?_eq_none_iff (sensitive : h.caseInsensitive = false) :
    h.classify? p = none ↔ ∀ kind, ¬(h.root kind).Contains p := by
  simp only [classify?, Subtree.all, List.find?_eq_none, isSome_segmentsBelow?_iff sensitive]
  constructor
  · intro none kind
    cases kind <;> simp_all
  · intro none kind _
    exact none kind

theorem contains_of_classify? (sensitive : h.caseInsensitive = false)
    (found : h.classify? p = some kind) : (h.root kind).Contains p := by
  have under := List.find?_some (show Subtree.all.find? _ = some kind from found)
  exact (isSome_segmentsBelow?_iff sensitive).mp under

/-- The standard library is tried last. -/
theorem not_contains_of_classify? (sensitive : h.caseInsensitive = false)
    (found : h.classify? p = some .standard) (early : other ≠ .standard) :
    ¬(h.root other).Contains p := by
  rw [← isSome_segmentsBelow?_iff sensitive]
  intro inside
  simp only [classify?, Subtree.all, List.find?_cons] at found
  cases other with
  | native => simp [inside] at found
  | thirdParty => split at found <;> simp [inside] at found
  | standard => exact early rfl

/-! ## Nested subtrees -/

/-- Neither of the two subtrees that are tried first contains the other or the standard library. -/
def Separate (h : Layout) : Prop :=
  ∀ kind other, kind ≠ .standard → other ≠ kind → ¬(h.root kind).Contains (h.root other)

/-- The root of `kind` contains `p` and is longer than every other root that does. -/
structure Innermost (h : Layout) (p : Path) (kind : Subtree) : Prop where
  contains : (h.root kind).Contains p
  longest : ∀ other, other ≠ kind → (h.root other).Contains p →
    (h.root other).components.length < (h.root kind).components.length

theorem Innermost.eq (inner : h.Innermost p kind) (also_ : h.Innermost p other) : kind = other := by
  by_contra differ
  have shorter := inner.longest other (Ne.symm differ) also_.contains
  have longer := also_.longest kind differ inner.contains
  omega

theorem innermost_of_classify? (sensitive : h.caseInsensitive = false) (separate : h.Separate)
    (found : h.classify? p = some kind) : h.Innermost p kind where
  contains := contains_of_classify? sensitive found
  longest other differ inside := by
    by_cases last : kind = .standard
    · subst last
      exact absurd inside (not_contains_of_classify? sensitive found differ)
    · have outside : ¬(h.root kind).Contains (h.root other) := separate kind other last differ
      have nested := Contains.total (contains_of_classify? sensitive found) inside
      exact (nested.resolve_left outside).length_lt outside

theorem classify?_eq_some_iff_innermost (sensitive : h.caseInsensitive = false)
    (separate : h.Separate) : h.classify? p = some kind ↔ h.Innermost p kind := by
  constructor
  · exact innermost_of_classify? sensitive separate
  · intro inner
    cases found : h.classify? p with
    | none => exact absurd inner.contains ((classify?_eq_none_iff sensitive).mp found kind)
    | some other =>
      apply congrArg some
      exact (innermost_of_classify? sensitive separate found).eq inner

/-- On a host that tells paths apart by case: if neither of the subtrees that are tried first contains
the other or the standard library, a path is classified by the longest root that contains it, and not
at all exactly if none does. And the names below a root are those that lead from it to the path. -/
theorem classify?_innermost (sensitive : h.caseInsensitive = false) :
    (h.Separate → ∀ p,
      (∀ kind, h.classify? p = some kind ↔ h.Innermost p kind) ∧
        (h.classify? p = none ↔ ∀ kind, ¬(h.root kind).Contains p)) ∧
      ∀ (p root : Path) (segments : List Text),
        (∀ s ∈ segments, s ≠ [] ∧ '/' ∉ s ∧ s ≠ ['.']) →
          (h.segmentsBelow? p root = some segments ↔
            p.same (segments.foldl child root) = true) := by
  constructor
  · intro separate p
    exact ⟨fun kind => classify?_eq_some_iff_innermost sensitive separate,
      classify?_eq_none_iff sensitive⟩
  · intro p root segments names
    have busy : ∀ s ∈ segments, '/' ∉ s ∧ isIdle s = false := by
      intro s hs
      obtain ⟨full, whole, other⟩ := names s hs
      exact ⟨whole, by simp [isIdle, full, other]⟩
    simp only [segmentsBelow?, sensitive, Bool.false_eq_true, if_false]
    exact map_text_below?_eq_some_iff busy

/-- The layout of an installation whose packages and libraries lie in its standard library. -/
def nested : Layout :=
  .posix ⟨"/opt/py".toList⟩ "3.11".toList ".so".toList

theorem classify?_innermost_nested :
    nested.Separate ∧
      nested.Innermost ⟨"/opt//py/lib/python3.11/./lib-dynload/_ssl.so".toList⟩ .native ∧
      nested.segmentsBelow? ⟨"/opt/py/lib//python3.11/../six.py".toList⟩ nested.stdlibDir =
        some ["..".toList, "six.py".toList] := by
  have separate : nested.Separate := by
    intro kind other early differ
    cases kind <;> cases other <;> simp at early differ <;> decide +kernel
  obtain ⟨kinds, names⟩ := classify?_innermost (h := nested) rfl
  refine ⟨separate, ?_, ?_⟩
  · exact ((kinds separate _).1 .native).mp (by decide +kernel)
  · exact (names _ _ _ (by decide)).mpr (by decide +kernel)

end Layout

end NativeFreeze
