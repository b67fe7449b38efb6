import Mathlib.Data.List.Nodup
import Mathlib.Data.List.Perm.Subperm
import NativeFreeze.Proofs.FileTree.Resolve

/-!
# What a visit finds

A visit of a directory finds every entry that names lead to from it through directories, unless a
name on the way is skipped. The bound on its depth does not cut it short, since the directories on
the way are entries of the tree.
-/

namespace NativeFreeze.FileTree

variable {t : FileTree} {k l : Location} {e : Entry} {p : Path} {name : Text} {names : List Text}
  {skip : Text → Bool} {depth : Nat}

theorem mem_entries_of_get? (h : t.get? l = some e) (below : l ≠ []) : (l, e) ∈ t.entries := by
  rw [get?, if_neg below] at h
  obtain ⟨front, back, entries, -⟩ := List.lookup_eq_some_iff.mp h
  exact entries ▸ List.mem_append_right front List.mem_cons_self

theorem mem_children (h : t.get? (k ++ [name]) = some e) : (name, e) ∈ t.children k := by
  refine List.mem_filterMap.mpr ⟨_, mem_entries_of_get? h (by simp), ?_⟩
  simp [nameIn?]

theorem Leads.head (h : Leads t k names e) : ∃ d, t.get? k = some d := by
  cases names with
  | nil => exact ⟨e, h⟩
  | cons name names => exact ⟨.directory, h.1⟩

/-- Every entry on the way is there. -/
theorem Leads.exists_entry (h : Leads t k names e) (n : Nat) :
    ∃ d, t.get? (k ++ names.take n) = some d := by
  induction names generalizing k n with
  | nil => exact ⟨e, by simpa [Leads] using h⟩
  | cons name names ih =>
    cases n with
    | zero => simpa using Leads.head h
    | succ n => simpa using ih h.2 n

/-- A way down is no longer than there are entries. -/
theorem Leads.length_le (h : Leads t k names e) : names.length ≤ t.entries.length := by
  have nodup : ((List.range names.length).map fun n => k ++ names.take (n + 1)).Nodup := by
    refine List.Nodup.map_on ?_ List.nodup_range
    intro m hm n hn same
    have lengths := congrArg List.length same
    simp only [List.length_append, List.length_take, List.mem_range] at lengths hm hn
    omega
  have entries : ((List.range names.length).map fun n => k ++ names.take (n + 1)) ⊆
      t.entries.map (·.1) := by
    intro l hl
    obtain ⟨n, hn, rfl⟩ := List.mem_map.mp hl
    obtain ⟨d, hd⟩ := h.exists_entry (n + 1)
    refine List.mem_map.mpr ⟨_, mem_entries_of_get? hd ?_, rfl⟩
    intro root
    have length := congrArg List.length root
    simp only [List.length_append, List.length_take, List.length_nil, List.mem_range] at length hn
    omega
  simpa using (List.Nodup.subperm nodup entries).length_le

theorem mem_visitWithin (h : Leads t k names e) (some : names ≠ []) (deep : names.length ≤ depth)
    (kept : ∀ name ∈ names, skip name = false) :
    (names.foldl Path.child p, e) ∈ t.visitWithin skip depth k p := by
  induction names generalizing k p depth with
  | nil => exact absurd rfl some
  | cons name names ih =>
    obtain ⟨depth, rfl⟩ : ∃ d, depth = d + 1 := Nat.exists_eq_add_one.mpr (by simp at deep; omega)
    obtain ⟨d, there⟩ := Leads.head h.2
    have visited : (name, d) ∈ (byName (t.children k)).filter fun child => !skip child.1 := by
      refine List.mem_filter.mpr ⟨List.mem_mergeSort.mpr (mem_children there), ?_⟩
      simp [kept name List.mem_cons_self]
    rw [visitWithin]
    refine List.mem_flatMap.mpr ⟨_, visited, ?_⟩
    cases names with
    | nil =>
      obtain rfl : d = e := Option.some.inj (there.symm.trans h.2)
      exact List.mem_cons_self
    | cons next names =>
      obtain rfl : d = .directory := Option.some.inj (there.symm.trans h.2.1)
      refine List.mem_cons_of_mem _ ?_
      refine ih h.2 (List.cons_ne_nil _ _) (by simpa using deep) ?_
      exact fun name hn => kept name (List.mem_cons_of_mem _ hn)

/-- A visit finds what names lead to, if none of them is skipped. -/
theorem mem_visit (h : Leads t k names e) (some : names ≠ [])
    (kept : ∀ name ∈ names, skip name = false) :
    (names.foldl Path.child p, e) ∈ t.visit skip k p :=
  mem_visitWithin h some (Nat.le_succ_of_le h.length_le) kept

end NativeFreeze.FileTree
