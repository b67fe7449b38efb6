import NativeFreeze.Proofs.Generated.Bootstrap
import NativeFreeze.Proofs.Generated.Identity

/-!
# Sources that are frozen once

A source that is frozen is refused from then on, whatever it is to be frozen with. Freezing an identity
leaves no statement that derives the package and puts in at least one that assigns it; the finder stands
on lines of its own and brings no such statement back. An executable source ends with the bootstrap, and
the first line of the bootstrap stands in front of all slots.
-/

namespace NativeFreeze

open Text

namespace PackageIdentity

variable {first second : PackageIdentity} {code out : Text} {file file' : Path}

/-- The statement that derives the package ends in another way than both assignments do. -/
theorem packageMarker_apart (s : Text) :
    Apart SourceContract.cython.packageMarker (s ++ "\")) < 0) goto bad;".toList) := by
  apply Apart.append
  apply apart_of_isSuffix (List.drop_suffix (SourceContract.cython.packageMarker.length - 18) _)
    List.suffix_rfl
  all_goals
    unfold SourceContract.cython
    simp only [String.toList_append]
    repeat rw [String.toList_ofList]
    decide

/-- The finder ends with a line break, and lacks a character of the statement that derives the
package. -/
theorem snippet_lines : (Finder.snippet SourceContract.cython.moduleObject).getLast? = some '\n' ∧
    '1' ∉ Finder.snippet SourceContract.cython.moduleObject := by
  -- The kernel is slow to list the characters of a literal; the rewriting spells them out.
  unfold Finder.snippet Finder.literals Finder.script
  simp only [List.map_cons, List.map_nil, String.toList_append]
  repeat rw [String.toList_ofList]
  decide +kernel

theorem packageMarker_line : '\n' ∉ SourceContract.cython.packageMarker ∧
    '1' ∈ SourceContract.cython.packageMarker := by
  unfold SourceContract.cython
  simp only [String.toList_append]
  repeat rw [String.toList_ofList]
  decide

theorem packageAssignmentStart_line : '\n' ∉ packageAssignmentStart ∧ packageAssignmentStart ≠ [] := by
  unfold packageAssignmentStart
  rw [String.toList_ofList]
  decide

/-- A word without line breaks stands in a frozen source if it stands in the source with the assignments
or in the finder. -/
theorem holds_frozen {word : Text} (line : '\n' ∉ word) (full : word ≠ [])
    (h : first.freeze .cython code file = .ok out) :
    holds word out = (holds word (first.assign .cython code) ||
      first.injectFinder && holds word (Finder.snippet SourceContract.cython.moduleObject)) := by
  obtain ⟨front, rest, rfl, whole, place⟩ := freeze_eq_ok h
  rw [← whole]
  cases inject : first.injectFinder with
  | false => simp
  | true =>
    rw [if_pos rfl, Bool.true_and]
    obtain ⟨before, -, inner, -, last, -, -, -, rfl⟩ := finderPlace_eq_ok (place inject)
    have ending : (before ++ (inner ++ last ++ ['\n'])).getLast? = some '\n' := by
      simp [← List.append_assoc]
    exact holds_insert line full ending snippet_lines.1 rest

/-- A frozen source is not frozen again. -/
theorem freeze_frozen (leaf : ';' ∉ first.leaf) (path : ';' ∉ first.path)
    (h : first.freeze .cython code file = .ok out) :
    second.freeze .cython out file' = .error ⟨.alreadyPackageFrozen file', none⟩ := by
  have ends := ends_packageAssignment leaf
  have ends' := ends_pathAssignment path
  have apart : Apart SourceContract.cython.packageMarker (packageAssignment first.leaf) :=
    packageMarker_apart _
  have apart' : Apart SourceContract.cython.packageMarker (pathAssignment first.path) :=
    packageMarker_apart _
  have kept := pathMarker_apart first.leaf
  have derived : holds SourceContract.cython.packageMarker out = false := by
    have gone := holds_replaced_eq_false ends_packageMarker ends ends_pathMarker ends' kept apart apart' code
    obtain ⟨line, digit⟩ := packageMarker_line
    rw [holds_frozen line (List.ne_nil_of_mem digit) h, assign, gone,
      holds_eq_false digit snippet_lines.2]
    simp
  have assigned : holds packageAssignmentStart out = true := by
    have derives : holds SourceContract.cython.packageMarker code = true :=
      check_eq_ok (checked_of_freeze h).1 _ List.mem_cons_self
    have stands := holds_replaced ends_packageMarker ends ends_pathMarker ends' kept derives
    have inside : packageAssignmentStart <:+: packageAssignment first.leaf := by
      unfold packageAssignment
      simp only [List.append_assoc]
      exact ⟨_, _, List.append_assoc _ _ _⟩
    obtain ⟨line, full⟩ := packageAssignmentStart_line
    rw [holds_frozen line full h, assign, holds_of_isInfix (inside.trans (isInfix_of_holds stands))]
    rfl
  rw [freeze, derived, assigned]
  rfl

end PackageIdentity

/-! ## Bootstraps -/

namespace Bootstrap

theorem marker_prefix_opening : marker <+: opening := by
  unfold opening pieceText marker
  simp only [template, spelled, List.drop_zero, List.take_succ_cons, List.take_zero,
    List.flatMap_cons, List.flatMap_nil, String.toList_append]
  repeat rw [String.toList_ofList]
  decide +kernel

/-- Whatever the values of the slots are, the first line of the template stays. -/
theorem marker_prefix_fill (value : Slot → Text) : marker <+: fill value := by
  rw [fill_eq, spelled_template, fillIn_append_cons apart_marks.1,
    fillIn_eq_self opening_fixed.2.slotless]
  exact marker_prefix_opening.trans (List.prefix_append opening _)

end Bootstrap

variable {r r' : Registration} {code out : Text} {file file' : Path}

/-- A source with a bootstrap takes no other one. -/
theorem Registration.append_registered (h : r.append code file = .ok out) :
    r'.append out file' = .error ⟨.alreadyExecutableFrozen file', none⟩ := by
  obtain ⟨-, rfl⟩ := append_eq_ok_iff.mp h
  have start : Bootstrap.marker <+: r.render := Bootstrap.marker_prefix_fill r.value
  have stands := start.isInfix.trans (List.suffix_append (code ++ "\n\n\n".toList) r.render).isInfix
  rw [append, holds_of_isInfix stands]
  rfl

/-- Each of the two patches is made once. A source in which an identity was frozen is refused by every
identity, and a source with a bootstrap by every registration. A bootstrap is appended, so the source
stays in front of it, and nothing but a bootstrap keeps it from being appended. Letters, digits, `_` and
`.` are names without semicolons. -/
theorem frozen_once (first second : PackageIdentity) (r r' : Registration) (code : Text)
    (file file' : Path) :
    (∀ out, ';' ∉ first.leaf → ';' ∉ first.path → first.freeze .cython code file = .ok out →
      second.freeze .cython out file' = .error ⟨.alreadyPackageFrozen file', none⟩) ∧
    ((∃ out, r.append code file = .ok out) ↔ ¬ Bootstrap.marker <:+: code) ∧
    ∀ out, r.append code file = .ok out → code <+: out ∧
      r'.append out file' = .error ⟨.alreadyExecutableFrozen file', none⟩ := by
  refine ⟨fun out leaf path h => PackageIdentity.freeze_frozen leaf path h, ?_, ?_⟩
  · rw [← holds_iff_isInfix, Bool.not_eq_true]
    constructor
    · intro ⟨out, h⟩
      exact (Registration.append_eq_ok_iff.mp h).1
    · intro unmarked
      exact ⟨_, Registration.append_eq_ok_iff.mpr ⟨unmarked, rfl⟩⟩
  · intro out h
    obtain ⟨-, rfl⟩ := Registration.append_eq_ok_iff.mp h
    constructor
    · rw [List.append_assoc]
      exact List.prefix_append code _
    · exact Registration.append_registered h

/-- A source that is both frozen and registered, with names that spell slots. -/
theorem frozen_once_initialiser :
    let r : Registration :=
      ⟨⟨"@CYFREEZE_ARCHIVE@".toList, "/* @cyfreeze:modinit-decls */".toList⟩, [], true, none⟩
    let file : Path := ⟨"a/b_1/__init__.c".toList⟩
    (∃ out, PackageIdentity.ofInitialiser.freeze .cython PackageIdentity.initialiser file = .ok out ∧
      PackageIdentity.freeze ⟨[], [], false⟩ .cython out file =
        .error ⟨.alreadyPackageFrozen file, none⟩) ∧
    ∃ out, r.append PackageIdentity.initialiser file = .ok out ∧
      PackageIdentity.initialiser <+: out ∧
      r.append out file = .error ⟨.alreadyExecutableFrozen file, none⟩ := by
  intro r file
  have works : (PackageIdentity.ofInitialiser.freeze .cython PackageIdentity.initialiser file).isOk =
      true := by
    unfold PackageIdentity.freeze PackageIdentity.initialiser SourceContract.cython
    simp only [String.toList_append]
    repeat rw [String.toList_ofList]
    decide +kernel
  have unmarked : ¬ Bootstrap.marker <:+: PackageIdentity.initialiser := by
    rw [← holds_iff_isInfix]
    unfold PackageIdentity.initialiser SourceContract.cython Bootstrap.marker
    simp only [String.toList_append]
    repeat rw [String.toList_ofList]
    decide +kernel
  obtain ⟨frozen, appends, once⟩ := frozen_once PackageIdentity.ofInitialiser ⟨[], [], false⟩ r r
    PackageIdentity.initialiser file file
  obtain ⟨registered, appended⟩ := appends.mpr unmarked
  cases h : PackageIdentity.ofInitialiser.freeze .cython PackageIdentity.initialiser file with
  | error e =>
    rw [h] at works
    exact nomatch works
  | ok out =>
    exact ⟨⟨out, rfl, frozen out (by decide) (by decide) h⟩, registered, appended,
      once registered appended⟩

end NativeFreeze
