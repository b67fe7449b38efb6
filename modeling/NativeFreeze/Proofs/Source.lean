import NativeFreeze.Proofs.Path
import NativeFreeze.Source.Basic

/-!
# Named sources

The names of a source are spelled by the segments of its path. The full name counts all of them, the
name leaves out the initialisers; so a full name that does not end in an initialiser ends in the same
piece as the name.
-/

namespace NativeFreeze

theorem SourceKind.suffix_ne_nil {kind : SourceKind} {p : Path} (h : kind.accepts p = true) :
    p.suffix ≠ [] := by
  intro none
  rw [accepts, none] at h
  revert h
  cases kind <;> decide

/-- A source keeps the extension that it was given by. -/
theorem Source.suffix_resolve {input : Path} (h : input.suffix ≠ []) (home : Option Path) :
    (resolve input home).path.suffix = input.suffix := by
  cases home with
  | none => rfl
  | some home => exact Path.suffix_join h

/-- What is made of a source of a kind is made of a path that has an extension of that kind. -/
theorem Source.make_ofKind_eq_ok {α : Type} {make : Source → α} {kind : SourceKind} {input : Path}
    {home : Option Path} {a : α}
    (h : (do return make (← ofKind kind input home) : Except Failure α) = .ok a) :
    kind.accepts input = true ∧ a = make (resolve input home) := by
  unfold ofKind at h
  split at h
  · rename_i accepted
    exact ⟨accepted, (Except.ok.inj h).symm⟩
  · simp [bind, Except.bind] at h

theorem split_initSegment : Text.split '.' initSegment = [initSegment] :=
  Text.split_eq_singleton (by decide)

variable {p : Path} {piece : Text}

/-- Every piece of a full name is an initialiser or a piece of the name. -/
theorem mem_split_moduleName (h : piece ∈ Text.split '.' (fullName p)) :
    piece = initSegment ∨ piece ∈ Text.split '.' (moduleName p) := by
  by_cases hs : segments p = []
  · rw [fullName, hs] at h
    rw [moduleName, hs]
    exact .inr h
  · rw [fullName, Text.split_join hs] at h
    obtain ⟨s, hs, hp⟩ := List.mem_flatMap.mp h
    by_cases hi : s = initSegment
    · rw [hi, split_initSegment] at hp
      exact .inl (List.mem_singleton.mp hp)
    · have kept : s ∈ (segments p).filter (· != initSegment) :=
        List.mem_filter.mpr ⟨hs, by simpa using hi⟩
      rw [moduleName, Text.split_join (List.ne_nil_of_mem kept)]
      exact .inr (List.mem_flatMap.mpr ⟨s, kept, hp⟩)

/-- The last piece of a joined text is that of its last segment. -/
theorem getLast?_split_join (sep : Char) (segments : List Text) (s : Text) :
    (Text.split sep (Text.join [sep] (segments ++ [s]))).getLast? =
      (Text.split sep s).getLast? := by
  rw [Text.split_join (List.append_ne_nil_of_right_ne_nil _ (List.cons_ne_nil s [])),
    List.flatMap_append, List.flatMap_singleton, List.getLast?_append]
  obtain ⟨last, h⟩ := Option.ne_none_iff_exists'.mp
    (mt List.getLast?_eq_none_iff.mp (Text.split_ne_nil sep s))
  rw [h, Option.some_or]

/-- A full name that does not end in an initialiser ends in the same piece as the name. -/
theorem getLast?_split_moduleName
    (h : (Text.split '.' (fullName p)).getLast? ≠ some initSegment) :
    (Text.split '.' (moduleName p)).getLast? = (Text.split '.' (fullName p)).getLast? := by
  rcases List.eq_nil_or_concat (segments p) with hs | ⟨front, s, hs⟩
  · rw [fullName, moduleName, hs]
    rfl
  · rw [List.concat_eq_append] at hs
    rw [fullName, hs, getLast?_split_join] at h
    have hi : s ≠ initSegment := by
      rintro rfl
      exact h (by rw [split_initSegment]; rfl)
    have kept : [s].filter (· != initSegment) = [s] := List.filter_eq_self.mpr (by simpa using hi)
    rw [fullName, moduleName, hs, List.filter_append, kept, getLast?_split_join,
      getLast?_split_join]

/-- A source that is spelled as nothing but an initialiser has no name. -/
theorem moduleName_eq_nil (h : Text.split '.' (fullName p) = [initSegment]) :
    moduleName p = [] := by
  have one : segments p = [initSegment] := by
    cases hs : segments p with
    | nil =>
      rw [fullName, hs] at h
      exact absurd h (by decide)
    | cons s rest =>
      rw [fullName, hs, Text.split_join (List.cons_ne_nil s rest), List.flatMap_cons] at h
      obtain ⟨first, others, hf⟩ := List.exists_cons_of_ne_nil (Text.split_ne_nil '.' s)
      rw [hf, List.cons_append, List.cons.injEq, List.append_eq_nil_iff] at h
      obtain ⟨rfl, rfl, hr⟩ := h
      cases rest with
      | nil =>
        have joined := Text.join_split '.' s
        rw [hf] at joined
        rw [← joined]
        rfl
      | cons t rest =>
        rw [List.flatMap_cons, List.append_eq_nil_iff] at hr
        exact absurd hr.1 (Text.split_ne_nil '.' t)
  rw [moduleName, one]
  rfl

end NativeFreeze
