import NativeFreeze.Proofs.Bundle.Plan

/-!
# Entries of a plan

Of the dependencies with equal components the one that comes last is planned, since sorting keeps
their order. On every host the entries of a plan are what the paths that are left call for; so a path
behind which there is no other spelling of it has its entry.
-/

namespace NativeFreeze

open NativeFreeze.Path

variable {h : Layout} {p q : Path} {ps front back : List Path}

namespace BundlePlan

/-- Sorting keeps the order of paths with equal components. -/
theorem filter_same_sort (p : Path) (ps : List Path) :
    (sort ps).filter p.same = ps.filter p.same := by
  have equal : (ps.filter p.same).Pairwise fun a b => a.le b = true := by
    refine List.pairwise_of_forall_mem_list fun a ha b hb => ?_
    have pa := (List.mem_filter.mp ha).2
    have pb := (List.mem_filter.mp hb).2
    have same : a.same b = true := same_trans ((same_comm a p).trans pa) pb
    rw [le, compare_eq_iff.mpr same]
    rfl
  have kept : List.Sublist (ps.filter p.same) ((sort ps).filter p.same) := by
    have sorted : List.Sublist (ps.filter p.same) (sort ps) :=
      @List.sublist_mergeSort Path le ps (fun _ _ _ => Path.le_trans) Path.le_total _ equal
        List.filter_sublist
    simpa [List.filter_filter] using sorted.filter p.same
  have lengths : (ps.filter p.same).length = ((sort ps).filter p.same).length :=
    ((List.mergeSort_perm ps le).symm.filter p.same).length_eq
  exact (kept.eq_of_length lengths).symm

/-- Of paths with equal components the last is left. -/
theorem mem_lastOfEqual (last : (ps.filter p.same).getLast? = some q) : q ∈ lastOfEqual ps := by
  fun_induction lastOfEqual ps with
  | case1 => simp at last
  | case2 a =>
    have only := List.mem_of_getLast? last
    exact (List.mem_filter.mp only).1
  | case3 a b rest same ih =>
    refine ih ?_
    by_cases pa : p.same a = true
    · have pb : p.same b = true := same_trans pa same
      simpa [pa, pb] using last
    · simpa [pa] using last
  | case4 a b rest differ ih =>
    rw [List.filter_cons] at last
    split at last
    · rw [List.getLast?_cons] at last
      cases later : ((b :: rest).filter p.same).getLast? with
      | none => simp_all
      | some r =>
        obtain rfl : r = q := by simpa [later] using last
        exact List.mem_cons_of_mem a (ih later)
    · exact List.mem_cons_of_mem a (ih last)

theorem mem_ordered_of_last (last : ∀ q ∈ back, p.same q = false) :
    p ∈ ordered (front ++ p :: back) := by
  refine mem_lastOfEqual (p := p) ?_
  have none : back.filter p.same = [] := List.filter_eq_nil_iff.mpr fun q hq => by simp [last q hq]
  rw [filter_same_sort, List.filter_append, List.filter_cons_of_pos (same_refl p), none,
    List.getLast?_concat]

theorem Share.alike_refl (a : Share) : a.Alike a := by
  cases a <;> simp [Share.Alike, ArchiveSource.same_iff]

/-- A path that is planned, and adds anything, has its entry in the plan. -/
theorem holds_of_mem_ordered (hp : p ∈ ordered ps) (real : share h p ≠ .nothing) :
    (ofDependencies h ps).Holds (share h p) :=
  (holds_iff_ordered ps real).mpr ⟨p, hp, Share.alike_refl _⟩

end BundlePlan

end NativeFreeze
