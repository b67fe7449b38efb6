import NativeFreeze.Node.Module
import NativeFreeze.Proofs.Node.Sample
import NativeFreeze.Proofs.Text.Split

/-!
# Making a package

A package is made by looking for its initialiser. The first unit that is one goes to the front and the
others keep their order, so the search for a name that follows ends at the same unit wherever it stood:
the library is named as if it were made of the initialiser alone. Where no unit is an initialiser, the
failure names the package that the first named unit would have belonged to.
-/

namespace NativeFreeze.PackageNode

variable {units front back others : List BuildUnit} {init u : BuildUnit} {named : NamedSource}
  {p : PackageNode} {name : Text}

/-- `init` is the first initialiser among `units`; `front` comes before it and `back` behind it. -/
structure FirstInit (units front : List BuildUnit) (init : BuildUnit) (back : List BuildUnit) :
    Prop where
  split : units = front ++ init :: back
  before : ∀ u ∈ front, isInit u = false
  isInit : isInit init = true

theorem isInit_eq_true_iff :
    isInit u = true ↔ ∃ named, u.named? = some named ∧ named.isPackageInit = true := by
  rw [isInit, Option.any_eq_true]

theorem FirstInit.find?_eq (h : FirstInit units front init back) :
    units.find? PackageNode.isInit = some init := by
  rw [List.find?_eq_some_iff_append]
  refine ⟨h.isInit, front, back, h.split, ?_⟩
  intro u hu
  simp [h.before u hu]

/-- An only initialiser is alone in being one. -/
theorem FirstInit.others_of_countP (h : FirstInit units front init back)
    (one : units.countP PackageNode.isInit = 1) :
    ∀ u ∈ front ++ back, PackageNode.isInit u = false := by
  have before : front.countP PackageNode.isInit = 0 := by
    rw [List.countP_eq_zero]
    intro u hu
    simp [h.before u hu]
  have behind : back.countP PackageNode.isInit = 0 := by
    simpa [h.split, h.isInit, before] using one
  rw [List.countP_eq_zero] at behind
  intro u hu
  rcases List.mem_append.mp hu with hu | hu
  · exact h.before u hu
  · simpa using behind u hu

/-- An initialiser at the head is the first one; any other unit there is passed over. -/
theorem firstInit_cons_iff : FirstInit (u :: units) front init back ↔
    isInit u = true ∧ front = [] ∧ init = u ∧ back = units ∨
      isInit u = false ∧ ∃ more, front = u :: more ∧ FirstInit units more init back := by
  constructor
  · rintro ⟨split, before, isInit⟩
    cases front with
    | nil =>
      obtain ⟨rfl, rfl⟩ := List.cons.inj split
      exact .inl ⟨isInit, rfl, rfl, rfl⟩
    | cons v front =>
      rw [List.forall_mem_cons] at before
      obtain ⟨rfl, rest⟩ := List.cons.inj split
      exact .inr ⟨before.1, front, rfl, rest, before.2, isInit⟩
  · rintro (⟨here, rfl, rfl, rfl⟩ | ⟨other, more, rfl, rfl, before, isInit⟩)
    · exact ⟨rfl, by simp, here⟩
    · exact ⟨rfl, List.forall_mem_cons.mpr ⟨other, before⟩, isInit⟩

theorem initFirst?_eq_some_iff : initFirst? units = some (init, others) ↔
    ∃ front back, FirstInit units front init back ∧ others = front ++ back := by
  induction units generalizing others with
  | nil =>
    constructor
    · intro h
      simp [initFirst?] at h
    · rintro ⟨front, back, first, -⟩
      simpa using first.split
  | cons u units ih =>
    simp only [firstInit_cons_iff]
    cases here : isInit u with
    | true =>
      constructor
      · intro h
        obtain ⟨rfl, rfl⟩ : u = init ∧ units = others := by simpa [initFirst?, here] using h
        exact ⟨[], units, .inl ⟨rfl, rfl, rfl, rfl⟩, rfl⟩
      · rintro ⟨front, back, ⟨-, rfl, rfl, rfl⟩ | ⟨other, -⟩, rfl⟩
        · simp [initFirst?, here]
        · exact nomatch other
    | false =>
      constructor
      · intro h
        rw [initFirst?, here, if_neg Bool.false_ne_true, Option.map_eq_some_iff] at h
        obtain ⟨⟨_, later⟩, found, same⟩ := h
        obtain ⟨rfl, rfl⟩ := Prod.mk.inj same
        obtain ⟨front, back, first, rfl⟩ := ih.mp found
        exact ⟨u :: front, back, .inr ⟨rfl, front, rfl, first⟩, rfl⟩
      · rintro ⟨front, back, ⟨other, -⟩ | ⟨-, more, rfl, first⟩, rfl⟩
        · exact nomatch other
        · have found := ih.mpr ⟨more, back, first, rfl⟩
          simp [initFirst?, here, found]

theorem initFirst?_eq_none_iff : initFirst? units = none ↔ ∀ u ∈ units, isInit u = false := by
  induction units with
  | nil => simp [initFirst?]
  | cons u units ih =>
    cases here : isInit u with
    | true => simp [initFirst?, here]
    | false => simp [initFirst?, here, ih]

/-- The search for a name ends at the unit that the search for an initialiser put in front. -/
theorem ofUnits_of_firstInit (first : FirstInit units front init back)
    (hn : init.named? = some named) :
    ofUnits units = .ok ⟨⟨named.name, init :: (front ++ back), true, [], []⟩⟩ := by
  have found : initFirst? units = some (init, front ++ back) :=
    initFirst?_eq_some_iff.mpr ⟨front, back, first, rfl⟩
  simp [ofUnits, found, ModuleNode.ofUnits, hn, Functor.map, Except.map]

theorem ofUnits_eq_ok_iff : ofUnits units = .ok p ↔ ∃ front init back named,
    FirstInit units front init back ∧ init.named? = some named ∧
      p = ⟨⟨named.name, init :: (front ++ back), true, [], []⟩⟩ := by
  constructor
  · intro made
    cases found : initFirst? units with
    | none => simp [ofUnits, found] at made
    | some pair =>
      obtain ⟨init, others⟩ := pair
      obtain ⟨front, back, first, rfl⟩ := initFirst?_eq_some_iff.mp found
      obtain ⟨named, hn, -⟩ := isInit_eq_true_iff.mp first.isInit
      rw [ofUnits_of_firstInit first hn] at made
      exact ⟨front, init, back, named, first, hn, (Except.ok.inj made).symm⟩
  · rintro ⟨front, init, back, named, first, hn, rfl⟩
    exact ofUnits_of_firstInit first hn

theorem mem_of_ofUnits (made : ofUnits units = .ok p) (hu : u ∈ p.module.units) : u ∈ units := by
  obtain ⟨front, init, back, named, first, -, rfl⟩ := ofUnits_eq_ok_iff.mp made
  rw [first.split]
  simpa [or_left_comm] using hu

end NativeFreeze.PackageNode
