import NativeFreeze.Generated.Identity
import NativeFreeze.Proofs.Text.Ended

/-!
# Taking a frozen identity back

Freezing puts two assignments in the place of two markers, and for an initialiser the finder into the
source. Each of the four statements ends with the only semicolon that it has, so a replacement stays
within a statement of the source. The assignments are told apart by what stands before the last
quotation mark, and so the markers can be put back in a source that did not have the assignments.
-/

namespace NativeFreeze

open Text

/-- `s` is `before`, the first `piece` in it, and `behind`. -/
def FirstAt (piece s before behind : Text) : Prop :=
  s = before ++ piece ++ behind ∧
    ∀ front rest, s = front ++ piece ++ rest → before.length ≤ front.length

theorem firstAt_of_cutBefore? {piece s before rest : Text}
    (h : cutBefore? piece s = some (before, rest)) :
    ∃ behind, rest = piece ++ behind ∧ FirstAt piece s before behind := by
  induction s generalizing before with
  | nil =>
    by_cases empty : piece.isEmpty
    · simp_all [cutBefore?, FirstAt]
    · simp [cutBefore?, empty] at h
  | cons c s ih =>
    rw [cutBefore?] at h
    split at h
    · next start =>
      obtain ⟨rfl, rfl⟩ := Prod.mk.inj (Option.some.inj h)
      obtain ⟨behind, hs⟩ := List.isPrefixOf_iff_prefix.mp start
      exact ⟨behind, hs.symm, by simp [hs], by simp⟩
    · next miss =>
      obtain ⟨⟨front, rest⟩, cut, same⟩ := Option.map_eq_some_iff.mp h
      obtain ⟨rfl, rfl⟩ := Prod.mk.inj same
      obtain ⟨behind, rfl, hs, first⟩ := ih cut
      refine ⟨behind, rfl, by simp [hs], ?_⟩
      intro other more h
      cases other with
      | nil => exact absurd (List.isPrefixOf_iff_prefix.mpr ⟨more, h.symm⟩) miss
      | cons d other =>
        have inner := first other more (by simpa using (List.cons.inj h).2)
        simpa using inner

/-- A character that is not in `s` stands in `s ++ t` behind `s`. -/
theorem exists_of_append_cons {c : Char} {s t u v : Text} (hc : c ∉ s)
    (h : s ++ t = u ++ c :: v) : ∃ w, u = s ++ w ∧ t = w ++ c :: v := by
  rcases List.append_eq_append_iff.mp h with ⟨w, hu, ht⟩ | ⟨spare, hs, ht⟩
  · exact ⟨w, hu, ht⟩
  · cases spare with
    | nil => exact ⟨[], by simpa using hs.symm, by simpa using ht.symm⟩
    | cons d spare =>
      have head : c = d := (List.cons.inj ht).1
      exact absurd (by simp [hs, head]) hc

/-- A piece whose first character is not in `s` is first found behind `s`. -/
theorem FirstAt.behind {c : Char} {s t piece before after : Text} (start : piece.head? = some c)
    (hc : c ∉ s) (h : FirstAt piece (s ++ t) before after) :
    ∃ between, before = s ++ between ∧ FirstAt piece t between after := by
  obtain ⟨same, first⟩ := h
  obtain ⟨piece, rfl⟩ := List.head?_eq_some_iff.mp start
  rw [List.append_assoc, List.cons_append] at same
  obtain ⟨between, rfl, ht⟩ := exists_of_append_cons hc same
  refine ⟨between, rfl, by simpa using ht, ?_⟩
  intro front rest h
  have bound := first (s ++ front) rest (by simp [h])
  simpa using bound

namespace PackageIdentity

variable {leaf path code out : Text} {identity : PackageIdentity} {file : Path}

-- The characters of a literal are slow to list by evaluation; the rewriting spells them out.
theorem ends_packageMarker : Ends ';' SourceContract.cython.packageMarker := by
  unfold SourceContract.cython
  simp only [String.toList_append]
  repeat rw [String.toList_ofList]
  decide

theorem ends_pathMarker : Ends ';' SourceContract.cython.pathMarker := by
  unfold SourceContract.cython
  simp only [String.toList_append]
  repeat rw [String.toList_ofList]
  decide

/-- How both assignments end. -/
theorem ends_tail : Ends ';' "\")) < 0) goto bad;".toList := by
  rw [String.toList_ofList]
  decide

theorem ends_packageAssignment (h : ';' ∉ leaf) : Ends ';' (packageAssignment leaf) := by
  apply Ends.append ends_tail
  simp only [List.mem_append, not_or]
  unfold packageAssignmentStart
  repeat rw [String.toList_ofList]
  exact ⟨by decide, h⟩

theorem ends_pathAssignment (h : ';' ∉ path) : Ends ';' (pathAssignment path) := by
  apply Ends.append ends_tail
  simp only [List.mem_append, not_or]
  rw [String.toList_ofList]
  exact ⟨by decide, h⟩

theorem pathMarker_apart (leaf : Text) :
    Apart SourceContract.cython.pathMarker (packageAssignment leaf) := by
  apply Apart.append
  apply apart_of_isSuffix (List.drop_suffix (SourceContract.cython.pathMarker.length - 18) _)
    List.suffix_rfl
  all_goals
    unfold SourceContract.cython
    simp only [String.toList_append]
    repeat rw [String.toList_ofList]
    decide

theorem pathAssignment_apart (hl : '"' ∉ leaf) (hp : '"' ∉ path) :
    Apart (pathAssignment path) (packageAssignment leaf) := by
  apply apart_append_right.mpr
  unfold packageAssignmentStart
  repeat rw [String.toList_ofList]
  apply Apart.append_append _ (c := '"') (by decide) (by decide) hp hl
  apply apart_of_isSuffix List.suffix_rfl (List.drop_suffix 3 _)
  · decide
  · decide

/-- The finder stands behind the line of the first block end after the first execution marker. -/
def BehindBlock (contract : SourceContract) (front rest : Text) : Prop :=
  ∃ before section_ between line,
    FirstAt contract.executionMarker (front ++ rest) before section_ ∧
    FirstAt contract.blockEnd section_ between (line ++ '\n' :: rest) ∧
    '\n' ∉ line ∧
    front = before ++ contract.executionMarker ++ between ++ contract.blockEnd ++ line ++ ['\n']

/-- The place of the finder is found in two steps, the last of them at a line break. -/
theorem finderPlace_eq_ok {contract : SourceContract} {front rest : Text}
    (h : finderPlace contract code = .ok (front, rest)) :
    ∃ before after inner last line,
      cutBefore? contract.executionMarker code = some (before, after) ∧
      cutBefore? contract.blockEnd after = some (inner, last) ∧
      cutAt? '\n' last = some (line, rest) ∧ front = before ++ (inner ++ line ++ ['\n']) := by
  unfold finderPlace at h
  split at h
  · exact nomatch h
  next before after marker =>
  split at h
  · exact nomatch h
  next section_ rest' block =>
  obtain ⟨rfl, rfl⟩ := Prod.mk.inj (Except.ok.inj h)
  unfold cutBehindLineOf at block
  split at block
  · exact nomatch block
  next inner last found =>
  split at block
  · exact nomatch block
  next line tail cut =>
  obtain ⟨rfl, rfl⟩ := Prod.mk.inj (Except.ok.inj block)
  exact ⟨before, after, inner, last, line, marker, found, cut, rfl⟩

theorem append_of_finderPlace {contract : SourceContract} {front rest : Text}
    (h : finderPlace contract code = .ok (front, rest)) : front ++ rest = code := by
  obtain ⟨before, after, inner, last, line, marker, found, cut, rfl⟩ := finderPlace_eq_ok h
  rw [← append_of_cutBefore? marker, ← append_of_cutBefore? found, append_of_cutAt? cut]
  simp

theorem behindBlock_of_finderPlace {front rest : Text}
    (h : finderPlace .cython code = .ok (front, rest)) : BehindBlock .cython front rest := by
  have whole := append_of_finderPlace h
  obtain ⟨before, after, inner, last, line, marker, found, cut, rfl⟩ := finderPlace_eq_ok h
  obtain ⟨section_, rfl, opens⟩ := firstAt_of_cutBefore? marker
  obtain ⟨behind, rfl, ends⟩ := firstAt_of_cutBefore? found
  -- The block end begins with a character that the execution marker does not have.
  obtain ⟨between, rfl, closes⟩ := ends.behind (c := '#') rfl (by decide)
  -- The block end has no line break.
  obtain ⟨line, rfl, rfl⟩ := exists_of_append_cons (by decide) (append_of_cutAt? cut)
  have once := not_mem_of_cutAt? cut
  rw [List.mem_append, not_or] at once
  refine ⟨before, section_, between, line, ?_, closes, once.2, by simp⟩
  rw [whole]
  exact opens

theorem check_eq_ok {contract : SourceContract} (h : contract.check code file = .ok ()) :
    ∀ marker ∈ contract.required, holds marker code = true := by
  unfold SourceContract.check at h
  split at h
  · exact nomatch h
  next complete =>
  intro marker mem
  simpa using List.find?_eq_none.mp complete marker mem

/-- What is frozen has passed the check, and its assignments are made. -/
theorem checked_of_freeze {contract : SourceContract}
    (h : identity.freeze contract code file = .ok out) :
    contract.check code file = .ok () ∧
      (if identity.injectFinder then addFinder contract (identity.assign contract code) file
        else .ok (identity.assign contract code)) = .ok out := by
  cases refused : !holds contract.packageMarker code && holds packageAssignmentStart code with
  | true =>
    rw [freeze, refused] at h
    exact nomatch h
  | false =>
  cases checked : contract.check code file with
  | error e =>
    rw [freeze, refused, checked] at h
    exact nomatch h
  | ok _ =>
    rw [freeze, refused, checked] at h
    exact ⟨rfl, h⟩

/-- A source that is frozen has both statements replaced, and the finder at its place. -/
theorem freeze_eq_ok {contract : SourceContract}
    (h : identity.freeze contract code file = .ok out) :
    ∃ front rest,
      out = front ++ (if identity.injectFinder then Finder.snippet contract.moduleObject else []) ++
        rest ∧
      front ++ rest = identity.assign contract code ∧
      (identity.injectFinder = true →
        finderPlace contract (identity.assign contract code) = .ok (front, rest)) := by
  obtain ⟨-, h⟩ := checked_of_freeze h
  cases inject : identity.injectFinder with
  | false =>
    rw [inject] at h
    have h : Except.ok (identity.assign contract code) = .ok out := h
    exact ⟨out, [], by simp, by simp [Except.ok.inj h], nofun⟩
  | true =>
    rw [inject] at h
    have h : addFinder contract (identity.assign contract code) file = .ok out := h
    unfold addFinder at h
    split at h
    · exact nomatch h
    next front rest place =>
    exact ⟨front, rest, (Except.ok.inj h).symm, append_of_finderPlace place, fun _ => place⟩

/-- A freeze of a source fails because the source was frozen before or lacks a marker. -/
theorem freeze_eq_error {contract : SourceContract} {e : Failure}
    (h : identity.freeze contract code file = .error e) :
    e = ⟨.alreadyPackageFrozen file, none⟩ ∨ ∃ marker, e = ⟨.templateDrift file marker, none⟩ := by
  simp only [freeze, SourceContract.check, addFinder] at h
  split at h
  · exact .inl (Except.error.inj h).symm
  · right
    split at h
    · exact ⟨_, (Except.error.inj h).symm⟩
    · split at h
      · simp only [bind, Except.bind] at h
        split at h
        · exact ⟨_, (Except.error.inj h).symm⟩
        · cases h
      · cases h

/-- Freezing can be taken back: without the finder, and with the statements that it replaced put back
in the place of its assignments, a frozen source is what it was. The names of the identity must not end
a statement or a literal, which letters, digits, `_` and `.` do not, and the source must not have the
assignments already. -/
theorem freeze_reversible
    (names : ∀ c ∈ identity.leaf ++ identity.path, c ≠ ';' ∧ c ≠ '"')
    (fresh : holds (packageAssignment identity.leaf) code = false)
    (fresh' : holds (pathAssignment identity.path) code = false)
    (h : identity.freeze .cython code file = .ok out) :
    ∃ front rest,
      out = front ++ (if identity.injectFinder then
        Finder.snippet SourceContract.cython.moduleObject else []) ++ rest ∧
      replace (packageAssignment identity.leaf) SourceContract.cython.packageMarker
        (replace (pathAssignment identity.path) SourceContract.cython.pathMarker
          (front ++ rest)) = code ∧
      (identity.injectFinder = true → BehindBlock .cython front rest) := by
  obtain ⟨front, rest, hout, whole, place⟩ := freeze_eq_ok h
  have spared {c : Char} (hc : c = ';' ∨ c = '"') {t : Text}
      (ht : t ⊆ identity.leaf ++ identity.path) : c ∉ t := by
    intro h
    have other := names c (ht h)
    simp_all
  have leaf : identity.leaf ⊆ identity.leaf ++ identity.path := List.subset_append_left _ _
  have path : identity.path ⊆ identity.leaf ++ identity.path := List.subset_append_right _ _
  refine ⟨front, rest, hout, ?_, fun inject => behindBlock_of_finderPlace (place inject)⟩
  rw [whole, assign]
  apply replace_undo ends_packageMarker _ ends_pathMarker _ _ _ fresh fresh'
  · exact ends_packageAssignment (spared (.inl rfl) leaf)
  · exact ends_pathAssignment (spared (.inl rfl) path)
  · exact pathMarker_apart identity.leaf
  · exact pathAssignment_apart (spared (.inr rfl) leaf) (spared (.inr rfl) path)

/-- The source of an initialiser, with one of the statements twice on a line. -/
def initialiser : Text :=
  "static int setup(void) \x7b\n".toList ++ SourceContract.cython.packageMarker ++
    SourceContract.cython.packageMarker ++ "\n#endif\n".toList ++ SourceContract.cython.pathMarker ++
    "\n/*--- Execution code ---*/\nrun();\n#endif /* run */\nreturn 0; \x7d\n".toList

/-- The identity of the initialiser of the package `a.b_1`. -/
def ofInitialiser : PackageIdentity :=
  ⟨"b_1".toList, "a.b_1".toList, true⟩

theorem freeze_reversible_initialiser :
    (∀ c ∈ ofInitialiser.leaf ++ ofInitialiser.path, c ≠ ';' ∧ c ≠ '"') ∧
      holds (packageAssignment ofInitialiser.leaf) initialiser = false ∧
      holds (pathAssignment ofInitialiser.path) initialiser = false ∧
      ∃ out, ofInitialiser.freeze .cython initialiser ⟨"a/b_1/__init__.c".toList⟩ = .ok out ∧
        ∃ front rest, out = front ++ Finder.snippet SourceContract.cython.moduleObject ++ rest ∧
          replace (packageAssignment ofInitialiser.leaf) SourceContract.cython.packageMarker
            (replace (pathAssignment ofInitialiser.path) SourceContract.cython.pathMarker
              (front ++ rest)) = initialiser ∧
          BehindBlock .cython front rest := by
  have names : ∀ c ∈ ofInitialiser.leaf ++ ofInitialiser.path, c ≠ ';' ∧ c ≠ '"' := by
    have all : (ofInitialiser.leaf ++ ofInitialiser.path).all
        (fun c => c != ';' && c != '"') = true := by
      decide
    intro c hc
    simpa using List.all_eq_true.mp all c hc
  have run : holds (packageAssignment ofInitialiser.leaf) initialiser = false ∧
      holds (pathAssignment ofInitialiser.path) initialiser = false ∧
      (ofInitialiser.freeze .cython initialiser ⟨"a/b_1/__init__.c".toList⟩).isOk = true := by
    decide +kernel
  obtain ⟨fresh, fresh', works⟩ := run
  cases h : ofInitialiser.freeze .cython initialiser ⟨"a/b_1/__init__.c".toList⟩ with
  | error e =>
    rw [h] at works
    exact nomatch works
  | ok out =>
    obtain ⟨front, rest, whole, back, behind⟩ := freeze_reversible names fresh fresh' h
    exact ⟨names, fresh, fresh', out, rfl, front, rest, whole, back, behind rfl⟩

end PackageIdentity

end NativeFreeze
