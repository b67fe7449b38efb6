import Mathlib.Data.List.Pairwise
import NativeFreeze.Proofs.Bundle.Names
import NativeFreeze.Proofs.Path.Extension
import NativeFreeze.Proofs.Workspace
import NativeFreeze.Source.Pattern

/-!
# What a pattern stands for

A directory lists its entries in some order, each under a name of its own. A pattern with a wildcard
stands for the regular files among them whose stem and extension it asks for, in ascending order of
their paths, whatever order they are listed in; a pattern without one stands for itself.
-/

namespace NativeFreeze

variable {s t name : Text} {entries entries' : List (Text × Entry)}

/-! ## Names of entries -/

namespace Path

theorem IsName.fileName? (h : IsName s) : fileName? ⟨s⟩ = some s := by
  rw [fileName?_eq_some_iff, components_eq, trail_of_busy h.whole h.busy, h.component_eq,
    List.getLast?_concat]

theorem IsName.stem?_eq (h : IsName s) : stem? ⟨s⟩ = some (cutExtension s).1 := by
  rw [stem?, h.fileName?, Option.map_some]

/-- The paths of two entries of a directory are the same only if the entries are. -/
theorem IsName.eq_of_same_child (hs : IsName s) (ht : IsName t) {p : Path}
    (same : (p.child s).same (p.child t) = true) : s = t := by
  rw [same_iff, components_child_of_isName p hs, components_child_of_isName p ht,
    List.append_cancel_left_eq] at same
  exact Component.name.inj (List.singleton_inj.mp same)

theorem compare_eq_lt_iff {p q : Path} :
    p.compare q = .lt ↔ p.le q = true ∧ p.same q = false := by
  rw [le, ← Bool.not_eq_true, ← compare_eq_iff]
  cases p.compare q <;> decide

theorem not_compare_eq_lt {p q : Path} (h : p.compare q = .lt) : q.compare p ≠ .lt := by
  have swap : q.compare p = (p.compare q).swap :=
    @Std.OrientedCmp.eq_swap _ compareComponents _ _ _
  rw [swap, h]
  exact nofun

end Path

open NativeFreeze.Path

/-! ## Listings -/

/-- What a directory can list: entries under names, and no name twice. -/
structure Listing (entries : List (Text × Entry)) : Prop where
  named : ∀ x ∈ entries, IsName x.1
  distinct : entries.Pairwise fun x y => x.1 ≠ y.1

theorem Listing.perm (h : Listing entries) (perm : entries'.Perm entries) : Listing entries' where
  named x hx := h.named x (perm.mem_iff.mp hx)
  distinct := h.distinct.perm perm.symm Ne.symm

namespace Pattern

variable {p : Pattern}

/-! ## What a pattern asks for -/

/-- A pattern that stands for other paths: its stem is `*`, or its extension is `.*`. -/
def Wild (p : Pattern) : Prop :=
  p.path.stem? = some ['*'] ∨ p.path.suffix = ['.', '*']

/-- A file name has the stem and the extension that a pattern asks for. -/
structure Fits (p : Pattern) (name : Text) : Prop where
  stem : p.path.stem? = some ['*'] ∨ Path.stem? ⟨name⟩ = p.path.stem?
  suffix : p.path.suffix = ['.', '*'] ∨ Path.suffix ⟨name⟩ = p.path.suffix

theorem anyStem_iff : p.anyStem = true ↔ p.path.stem? = some ['*'] := by
  rw [anyStem, Pattern.stem, beq_iff_eq]
  cases p.path.stem? <;> simp

theorem anySuffix_iff : p.anySuffix = true ↔ p.path.suffix = ['.', '*'] := by
  rw [anySuffix, beq_iff_eq]

theorem isWild_iff : p.isWild = true ↔ p.Wild := by
  rw [isWild, Bool.or_eq_true, anyStem_iff, anySuffix_iff, Wild]

theorem admits_iff (h : IsName name) : p.admits name = true ↔ p.Fits name := by
  -- A pattern without a file name asks for the empty stem, which no name has.
  have stem : (Path.stem? ⟨name⟩).getD [] = p.stem ↔ Path.stem? ⟨name⟩ = p.path.stem? := by
    have full := stem_ne_nil h.busy
    rw [h.stem?_eq, Option.getD_some, Pattern.stem]
    cases p.path.stem? with
    | none => simp [full]
    | some s => simp
  simp only [admits, Bool.and_eq_true, Bool.or_eq_true, beq_iff_eq, anyStem_iff, anySuffix_iff,
    stem]
  exact ⟨fun ⟨stem, suffix⟩ => ⟨stem, suffix⟩, fun fits => ⟨fits.stem, fits.suffix⟩⟩

/-! ## What a pattern selects -/

/-- The path of an entry, if it is a file that a pattern admits. -/
def pick (p : Pattern) (x : Text × Entry) : Option Path :=
  if x.2.isFile && p.admits x.1 then some (p.directory.child x.1) else none

theorem select_eq (p : Pattern) (entries : List (Text × Entry)) :
    p.select entries = Path.sort (entries.filterMap p.pick) := rfl

theorem pick_eq_some_iff {x : Text × Entry} {q : Path} :
    p.pick x = some q ↔
      x.2.isFile = true ∧ p.admits x.1 = true ∧ q = p.directory.child x.1 := by
  rw [pick]
  split
  · rename_i both
    rw [Bool.and_eq_true] at both
    simp [both, eq_comm]
  · rename_i other
    rw [Bool.and_eq_true] at other
    simp only [reduceCtorEq, false_iff]
    exact fun h => other ⟨h.1, h.2.1⟩

theorem mem_select_iff {q : Path} : q ∈ p.select entries ↔
    ∃ x ∈ entries, x.2.isFile = true ∧ p.admits x.1 = true ∧ q = p.directory.child x.1 := by
  simp only [select_eq, mem_sort, List.mem_filterMap, pick_eq_some_iff]

/-- Different entries give different paths. -/
theorem pairwise_pick (h : Listing entries) :
    (entries.filterMap p.pick).Pairwise fun q r => q.same r = false := by
  rw [List.pairwise_filterMap]
  refine h.distinct.imp_of_mem ?_
  rintro x y hx hy other q hq r hr
  obtain ⟨-, -, rfl⟩ := pick_eq_some_iff.mp hq
  obtain ⟨-, -, rfl⟩ := pick_eq_some_iff.mp hr
  rw [← Bool.not_eq_true]
  exact fun same => other ((h.named x hx).eq_of_same_child (h.named y hy) same)

theorem pairwise_select (h : Listing entries) :
    (p.select entries).Pairwise fun q r => q.compare r = .lt := by
  have apart : (p.select entries).Pairwise fun q r => q.same r = false :=
    (pairwise_pick h).perm (List.mergeSort_perm _ _).symm fun {q r} other => same_comm r q ▸ other
  refine ((pairwise_sort _).and apart).imp ?_
  exact fun {q r} both => compare_eq_lt_iff.mpr both

/-- The order in which entries are listed is not seen in what is selected. -/
theorem select_perm (h : Listing entries) (perm : entries'.Perm entries) :
    p.select entries' = p.select entries := by
  have picked : (p.select entries').Perm (p.select entries) :=
    (List.mergeSort_perm _ _).trans ((perm.filterMap p.pick).trans (List.mergeSort_perm _ _).symm)
  refine picked.eq_of_pairwise ?_ (pairwise_select (h.perm perm)) (pairwise_select h)
  exact fun q r _ _ before behind => absurd behind (not_compare_eq_lt before)

/-- What a pattern stands for among the entries of a directory: in strictly ascending order, the paths
of the regular files with the stem and the extension that it asks for. -/
structure StandsFor (p : Pattern) (entries : List (Text × Entry)) (found : List Path) : Prop where
  ascending : found.Pairwise fun q r => q.compare r = .lt
  mem_iff : ∀ q, q ∈ found ↔ ∃ name content mark,
    (name, .file content mark) ∈ entries ∧ p.Fits name ∧ q = p.directory.child name

theorem standsFor_select (h : Listing entries) : p.StandsFor entries (p.select entries) where
  ascending := pairwise_select h
  mem_iff q := by
    rw [mem_select_iff]
    constructor
    · rintro ⟨⟨name, e⟩, listed, file, admitted, rfl⟩
      cases e with
      | file content mark =>
        exact ⟨name, content, mark, listed, (admits_iff (h.named _ listed)).mp admitted, rfl⟩
      | directory | link => cases file
    · rintro ⟨name, content, mark, listed, fits, rfl⟩
      exact ⟨_, listed, rfl, (admits_iff (h.named _ listed)).mpr fits, rfl⟩

theorem result_expand_of_not_wild (h : ¬p.Wild) (home : Option Path) (w : Workspace) :
    (p.expand home).result w = (.ok [p.path], w) := by
  rw [expand, if_neg (mt isWild_iff.mp h), Action.result_pure]

theorem result_expand_of_wild (h : p.Wild) (home : Option Path) (w : Workspace) :
    (p.expand home).result w =
      match w.files.list (p.searched home) with
      | .ok entries => (.ok (p.select entries), w)
      | .error e => (.error ⟨.file e, some (.listing (p.searched home))⟩, w) := by
  rw [expand, if_pos (isWild_iff.mpr h), Action.result_bind, Action.result_ask]
  cases w.files.list (p.searched home) <;> rfl

/-- A pattern with a wildcard fails where its directory cannot be listed, and otherwise finds what it
stands for, in whatever order that is listed. A pattern without a wildcard comes back by itself. -/
theorem expand_exactly (spelled : Path) (home : Option Path) (w : Workspace) :
    ((ofPath spelled).Wild →
      (∀ e, w.files.list ((ofPath spelled).searched home) = .error e →
        ((ofPath spelled).expand home).result w =
          (.error ⟨.file e, some (.listing ((ofPath spelled).searched home))⟩, w)) ∧
      ∀ entries, w.files.list ((ofPath spelled).searched home) = .ok entries → Listing entries →
        ∃ found, ((ofPath spelled).expand home).result w = (.ok found, w) ∧
          (ofPath spelled).StandsFor entries found ∧
          ∀ w' entries', w'.files.list ((ofPath spelled).searched home) = .ok entries' →
            entries'.Perm entries → ((ofPath spelled).expand home).result w' = (.ok found, w')) ∧
    (¬(ofPath spelled).Wild →
      ((ofPath spelled).expand home).result w = (.ok [⟨slashed spelled.text⟩], w)) := by
  refine ⟨fun wild => ⟨fun e refused => ?_, fun entries listed listing => ?_⟩, fun plain => ?_⟩
  · rw [result_expand_of_wild wild, refused]
  · refine ⟨(ofPath spelled).select entries, ?_, standsFor_select listing, ?_⟩
    · rw [result_expand_of_wild wild, listed]
    · intro w' entries' listed' perm
      rw [result_expand_of_wild wild, listed']
      dsimp only
      rw [select_perm listing perm]
  · exact result_expand_of_not_wild plain home w

/-- Scripts in no order: one with two dots, one that is all stem, a folder, a link, and a file that only
starts like a script. -/
def mixed : List (Text × Entry) :=
  [("b.py".toList, .file (.plain []) false), (".py".toList, .file (.plain []) false),
    ("a.c.py".toList, .file (.plain []) false), ("d.py".toList, .directory),
    ("e.py".toList, .link "b.py".toList), ("b.pyc".toList, .file (.plain []) false)]

/-- A project whose folder `src/utils` lists these entries. -/
def project (entries : List (Text × Entry)) : Workspace where
  files := { entries := (["src".toList], .directory) :: (["src".toList, "utils".toList], .directory) ::
    entries.map fun (name, e) => (["src".toList, "utils".toList, name], e) }

theorem listing_mixed : Listing mixed where
  named := by decide
  distinct := by decide

theorem expand_exactly_mixed :
    (ofPath ⟨"utils\\*.py".toList⟩).Wild ∧ Listing mixed ∧
      (project mixed).files.list ((ofPath ⟨"utils\\*.py".toList⟩).searched (some ⟨"src".toList⟩)) =
        .ok mixed ∧
      ∃ found,
        ((ofPath ⟨"utils\\*.py".toList⟩).expand (some ⟨"src".toList⟩)).result (project mixed) =
          (.ok found, project mixed) ∧
        (ofPath ⟨"utils\\*.py".toList⟩).StandsFor mixed found ∧
        ((ofPath ⟨"utils\\*.py".toList⟩).expand (some ⟨"src".toList⟩)).result
          (project mixed.reverse) = (.ok found, project mixed.reverse) := by
  have wild : (ofPath ⟨"utils\\*.py".toList⟩).Wild := .inl (by decide)
  have listed : (project mixed).files.list
      ((ofPath ⟨"utils\\*.py".toList⟩).searched (some ⟨"src".toList⟩)) = .ok mixed := by rfl
  have listed' : (project mixed.reverse).files.list
      ((ofPath ⟨"utils\\*.py".toList⟩).searched (some ⟨"src".toList⟩)) = .ok mixed.reverse := by rfl
  obtain ⟨found, answer, standsFor, again⟩ :=
    ((expand_exactly ⟨"utils\\*.py".toList⟩ (some ⟨"src".toList⟩) (project mixed)).1 wild).2
      mixed listed listing_mixed
  exact ⟨wild, listing_mixed, listed, found, answer, standsFor,
    again _ _ listed' mixed.reverse_perm⟩

example : (ofPath ⟨"utils\\*.py".toList⟩).select mixed =
    [⟨"utils/a.c.py".toList⟩, ⟨"utils/b.py".toList⟩] := by
  cbv

end Pattern

end NativeFreeze
