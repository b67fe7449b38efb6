import Mathlib.Order.Defs.LinearOrder
import NativeFreeze.Path.Basic

/-!
# The order of paths

Texts, components and lists of components are ordered linearly. Paths are ordered by their
components: two of them compare equal exactly if they have the same ones, so that the order is total
and blind to how a path is spelled.
-/

namespace NativeFreeze

/-! ## Texts -/

namespace Text

/-- The order of characters, by code point. -/
def compareChar (a b : Char) : Ordering :=
  Ord.compare a.toNat b.toNat

instance : Std.TransCmp compareChar where
  eq_swap := Std.OrientedOrd.eq_swap
  isLE_trans := Std.TransOrd.isLE_trans

instance : Std.LawfulEqCmp compareChar where
  compare_self := Std.ReflOrd.compare_self
  eq_of_compare h := Char.toNat_inj.mp (Std.LawfulEqOrd.eq_of_compare h)

theorem compare_eq_compareLex : Text.compare = List.compareLex compareChar := by
  funext s t
  induction s generalizing t with
  | nil => cases t <;> rfl
  | cons a s ih =>
    cases t with
    | nil => rfl
    | cons b t => rw [Text.compare, List.compareLex_cons_cons, ih, compareChar]

instance : Std.TransCmp Text.compare :=
  compare_eq_compareLex ▸ inferInstance

instance : Std.LawfulEqCmp Text.compare :=
  compare_eq_compareLex ▸ inferInstance

end Text

namespace Path

/-! ## Components -/

namespace Component

/-- The text by which components of one kind are told apart. -/
def word : Component → Text
  | name s => s
  | _ => []

/-- The order of components by the texts of their names. -/
def compareWord (a b : Component) : Ordering :=
  Text.compare a.word b.word

instance : Std.TransCmp compareWord where
  eq_swap {a b} := @Std.OrientedCmp.eq_swap Text Text.compare _ a.word b.word
  isLE_trans {a b c} := @Std.TransCmp.isLE_trans Text Text.compare _ a.word b.word c.word

theorem compare_eq_compareLex :
    Component.compare = compareLex (compareOn rank) compareWord := by
  funext a b
  cases a <;> cases b <;> rfl

theorem eq_of_rank_of_word {a b : Component} (hr : a.rank = b.rank) (hw : a.word = b.word) :
    a = b := by
  cases a <;> cases b <;> simp_all [rank, word]

instance : Std.TransCmp Component.compare :=
  compare_eq_compareLex ▸ inferInstance

instance : Std.LawfulEqCmp Component.compare where
  compare_self {a} := by
    cases a with
    | name s => exact @Std.ReflCmp.compare_self Text Text.compare _ s
    | _ => rfl
  eq_of_compare {a b} h := by
    rw [compare_eq_compareLex, compareLex_eq_eq] at h
    have rank : a.rank = b.rank := Std.LawfulEqOrd.eq_of_compare h.1
    have word : a.word = b.word := @Std.LawfulEqCmp.eq_of_compare Text Text.compare _ _ _ h.2
    exact eq_of_rank_of_word rank word

end Component

theorem compareComponents_eq_compareLex :
    compareComponents = List.compareLex Component.compare := by
  funext as bs
  induction as generalizing bs with
  | nil => cases bs <;> rfl
  | cons a as ih =>
    cases bs with
    | nil => rfl
    | cons b bs => rw [compareComponents, List.compareLex_cons_cons, ih]

instance : Std.TransCmp compareComponents :=
  compareComponents_eq_compareLex ▸ inferInstance

instance : Std.LawfulEqCmp compareComponents :=
  compareComponents_eq_compareLex ▸ inferInstance

/-! ## Paths -/

variable {p q r : Path}

theorem same_iff : p.same q = true ↔ p.components = q.components := by
  simp [same]

@[simp]
theorem same_refl (p : Path) : p.same p = true :=
  same_iff.mpr rfl

theorem same_comm (p q : Path) : p.same q = q.same p :=
  Bool.beq_comm

theorem same_trans (hpq : p.same q = true) (hqr : q.same r = true) : p.same r = true :=
  same_iff.mpr ((same_iff.mp hpq).trans (same_iff.mp hqr))

theorem compare_eq_iff : p.compare q = .eq ↔ p.same q = true := by
  rw [same_iff, compare, Std.LawfulEqCmp.compare_eq_iff_eq]

theorem le_trans (hpq : p.le q = true) (hqr : q.le r = true) : p.le r = true :=
  @Std.TransCmp.isLE_trans _ compareComponents _ _ _ _ hpq hqr

theorem le_total (p q : Path) : (p.le q || q.le p) = true := by
  have swap : p.compare q = (q.compare p).swap :=
    @Std.OrientedCmp.eq_swap _ compareComponents _ _ _
  rw [le, le, swap]
  cases q.compare p <;> rfl

theorem pairwise_sort (ps : List Path) : (sort ps).Pairwise fun p q => p.le q = true :=
  @List.pairwise_mergeSort Path le (fun _ _ _ => Path.le_trans) Path.le_total ps

@[simp]
theorem mem_sort {ps : List Path} : p ∈ sort ps ↔ p ∈ ps :=
  (List.mergeSort_perm ps le).mem_iff

end Path

end NativeFreeze
