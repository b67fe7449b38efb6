import Mathlib.Data.List.Forall2
import NativeFreeze.Generated.Contract
import NativeFreeze.Proofs.Text.Split

/-!
# Symbols of units

A unit outside a package is transpiled under the last piece of its name, one of a package under its
whole name with `_` for each dot. Two whole names are written alike exactly when they differ in
nothing but the choice between dots and underscores.
-/

namespace NativeFreeze

variable {a b name : Text}

theorem initSymbol_inj : initSymbol a = initSymbol b ↔ a = b :=
  List.append_right_inj _

theorem moduleSymbol_true (name : Text) :
    moduleSymbol name true = name.map fun c => if c = '.' then '_' else c := rfl

@[simp]
theorem length_moduleSymbol_true (name : Text) : (moduleSymbol name true).length = name.length := by
  rw [moduleSymbol_true, List.length_map]

/-- A name without a dot is its own symbol. -/
theorem moduleSymbol_eq_self (h : '.' ∉ name) (package : Bool) : moduleSymbol name package = name := by
  cases package with
  | false => simp [moduleSymbol, Text.split_eq_singleton h]
  | true =>
    rw [moduleSymbol_true]
    have kept : ∀ c ∈ name, (if c = '.' then '_' else c) = id c := by
      intro c hc
      have dot : c ≠ '.' := fun e => h (e ▸ hc)
      exact if_neg dot
    rw [List.map_congr_left kept, List.map_id]

/-- Names that differ in nothing but the choice between dots and underscores. -/
def SameUpToDots : Text → Text → Prop :=
  List.Forall₂ fun x y => x = y ∨ x ∈ ['.', '_'] ∧ y ∈ ['.', '_']

theorem flattened_eq_iff {x y : Char} :
    ((if x = '.' then '_' else x) = if y = '.' then '_' else y) ↔
      x = y ∨ x ∈ ['.', '_'] ∧ y ∈ ['.', '_'] := by
  by_cases hx : x = '.' <;> by_cases hy : y = '.'
  · simp [hx, hy]
  · simp [hx, hy, eq_comm]
  · simp [hx, hy]
  · simp only [hx, hy, if_false, List.mem_cons, List.not_mem_nil, or_false, false_or]
    exact ⟨.inl, fun h => h.elim id fun both => both.1.trans both.2.symm⟩

/-- Units of a package are transpiled under one name if that is all in which their names differ. -/
theorem moduleSymbol_true_eq_iff : moduleSymbol a true = moduleSymbol b true ↔ SameUpToDots a b := by
  rw [moduleSymbol_true, moduleSymbol_true, ← List.forall₂_eq_eq_eq, List.forall₂_map_left_iff,
    List.forall₂_map_right_iff, SameUpToDots]
  simp only [flattened_eq_iff]

theorem getLast?_split (name : Text) :
    (Text.split '.' name).getLast? = some (moduleSymbol name false) := by
  obtain ⟨last, h⟩ := Option.ne_none_iff_exists'.mp
    (mt List.getLast?_eq_none_iff.mp (Text.split_ne_nil '.' name))
  rw [h, moduleSymbol, if_neg Bool.false_ne_true, h, Option.getD_some]

theorem moduleSymbol_mem_split (name : Text) : moduleSymbol name false ∈ Text.split '.' name :=
  List.mem_of_getLast? (getLast?_split name)

theorem not_mem_moduleSymbol_false (name : Text) : '.' ∉ moduleSymbol name false :=
  Text.not_mem_of_mem_split (moduleSymbol_mem_split name)

end NativeFreeze
