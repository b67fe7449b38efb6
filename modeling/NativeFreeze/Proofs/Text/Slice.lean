import NativeFreeze.Proofs.Text.Cut
import NativeFreeze.Proofs.Text.Utf8

/-!
# Slices at byte offsets

A text is sliced between two offsets that count bytes. A slice is refused if an offset lies behind the
text or inside a character; so it is a part of the text. Where a word is searched for, the pieces between
its occurrences are the slices between their offsets.
-/

namespace NativeFreeze.Text

variable {s t word front piece rest first : Text} {pieces : List Text} {i j k : Nat}

/-! ## Boundaries -/

/-- Whether no character is under way behind `i` bytes: the text ends there, or a byte is next that
starts a character. -/
def isBoundary (s : Text) (i : Nat) : Bool :=
  match s.bytes[i]? with
  | none => i == s.bytes.length
  | some b => !Utf8.isContinuation b

theorem isBoundary_zero (s : Text) : isBoundary s 0 = true := by
  cases s with
  | nil => rfl
  | cons c s =>
    obtain ⟨b, more, code, start, -⟩ := Utf8.exists_encodeChar c
    have starts : Utf8.isContinuation b = false := Utf8.isContinuation_eq_false (by omega)
    simp [isBoundary, bytes_cons, code, starts]

/-- What stands in front of a text leaves its boundaries as they are. -/
theorem isBoundary_append_add (front rest : Text) (i : Nat) :
    isBoundary (front ++ rest) (front.bytes.length + i) = isBoundary rest i := by
  rw [isBoundary, isBoundary, getElem?_bytes_append]
  cases rest.bytes[i]? with
  | none =>
    rw [Bool.eq_iff_iff, beq_iff_eq, beq_iff_eq, bytes_append, List.length_append,
      Nat.add_left_cancel_iff]
  | some b => rfl

theorem isBoundary_append (front rest : Text) : isBoundary (front ++ rest) front.bytes.length = true :=
  (isBoundary_append_add front rest 0).trans (isBoundary_zero rest)

/-- Inside a character there is no boundary. -/
theorem isBoundary_cons_eq_false {c : Char} (later : 0 < i) (inside : i < c.utf8Size) (s : Text) :
    isBoundary (c :: s) i = false := by
  obtain ⟨b, more, code, -, goOn⟩ := Utf8.exists_encodeChar c
  obtain ⟨j, rfl⟩ := Nat.exists_eq_add_of_lt later
  have within : j < more.length := by
    rw [← String.length_utf8EncodeChar, code, List.length_cons] at inside
    omega
  have next : (bytes (c :: s))[0 + j + 1]? = some more[j] := by
    rw [bytes_cons, code]
    simp [List.getElem?_append_left, within]
  rw [isBoundary, next]
  simp [goOn _ (List.getElem_mem within)]

/-- A boundary has so many bytes of the text in front of it as it counts. -/
theorem exists_of_isBoundary (h : isBoundary s i = true) :
    ∃ front rest, s = front ++ rest ∧ front.bytes.length = i := by
  induction s generalizing i with
  | nil =>
    have last : i = 0 := by simpa [isBoundary] using h
    exact ⟨[], [], rfl, last.symm⟩
  | cons c s ih =>
    rcases Nat.eq_zero_or_pos i with rfl | later
    · exact ⟨[], c :: s, rfl, rfl⟩
    rcases Nat.lt_or_ge i c.utf8Size with inside | behind
    · simp [isBoundary_cons_eq_false later inside] at h
    · obtain ⟨j, rfl⟩ := Nat.exists_eq_add_of_le behind
      have inner : isBoundary s j = true := by
        have shifted := isBoundary_append_add [c] s j
        rw [length_bytes_cons] at shifted
        exact shifted.symm.trans h
      obtain ⟨front, rest, rfl, rfl⟩ := ih inner
      exact ⟨c :: front, rest, rfl, length_bytes_cons c front⟩

/-! ## Slices -/

/-- The part of a text from byte `i` up to byte `j`, unless one of them lies behind the text or inside a
character, or they are in the wrong order. -/
def slice? (s : Text) (i j : Nat) : Option Text :=
  if i ≤ j ∧ isBoundary s i = true ∧ isBoundary s j = true then
    Utf8.decode? ((s.bytes.drop i).take (j - i))
  else none

theorem slice?_append (front piece rest : Text) :
    slice? (front ++ piece ++ rest) front.bytes.length (front ++ piece).bytes.length = some piece := by
  have start : isBoundary (front ++ piece ++ rest) front.bytes.length = true := by
    rw [List.append_assoc]
    exact isBoundary_append front _
  have stop := isBoundary_append (front ++ piece) rest
  have order : front.bytes.length ≤ (front ++ piece).bytes.length := by simp
  have between : ((front ++ piece ++ rest).bytes.drop front.bytes.length).take
      ((front ++ piece).bytes.length - front.bytes.length) = piece.bytes := by
    simp only [bytes_append, List.length_append, Nat.add_sub_cancel_left, List.append_assoc,
      List.drop_left', List.take_left']
  rw [slice?, if_pos ⟨order, start, stop⟩, between]
  exact Utf8.decode?_encode piece

/-- A slice is the part of the text between its offsets. -/
theorem slice?_eq_some_iff : slice? s i j = some piece ↔
    ∃ front rest, s = front ++ piece ++ rest ∧ front.bytes.length = i ∧
      (front ++ piece).bytes.length = j := by
  constructor
  · intro sliced
    have bounds : i ≤ j ∧ isBoundary s i = true ∧ isBoundary s j = true := by
      rw [slice?] at sliced
      split at sliced
      · assumption
      · cases sliced
    obtain ⟨order, start, stop⟩ := bounds
    obtain ⟨front, behind, rfl, rfl⟩ := exists_of_isBoundary start
    obtain ⟨front', rest, whole, rfl⟩ := exists_of_isBoundary stop
    obtain ⟨piece', rfl⟩ : ∃ piece', front' = front ++ piece' := by
      rcases List.append_eq_append_iff.mp whole with ⟨piece', same, -⟩ | ⟨extra, same, -⟩
      · exact ⟨piece', same⟩
      · refine ⟨[], ?_⟩
        by_cases none : extra = []
        · simp [same, none]
        · have more := length_bytes_pos none
          rw [same, bytes_append, List.length_append] at order
          omega
    rw [whole, slice?_append] at sliced
    obtain rfl := Option.some.inj sliced
    exact ⟨front, rest, whole, rfl, rfl⟩
  · rintro ⟨front, rest, rfl, rfl, rfl⟩
    exact slice?_append front piece rest

/-! ## Where a word occurs -/

/-- The byte offsets of the occurrences of a word, found from left to right without overlap; `i` is the
offset of `s`, and `skip` counts the characters of an occurrence still to be passed. -/
def offsetsFrom (word : Text) : (i skip : Nat) → Text → List Nat
  | i, 0, [] => if word.isEmpty then [i] else []
  | _, _ + 1, [] => []
  | i, skip + 1, c :: r => offsetsFrom word (i + c.utf8Size) skip r
  | i, 0, c :: r =>
    if word.isPrefixOf (c :: r) then i :: offsetsFrom word (i + c.utf8Size) (word.length - 1) r
    else offsetsFrom word (i + c.utf8Size) 0 r

/-- The byte offsets of the occurrences of a word. -/
def offsets (word s : Text) : List Nat :=
  offsetsFrom word 0 0 s

/-- The offsets at which pieces in a row start, the first of them at `i`. -/
def startsFrom : (i : Nat) → List Text → List Nat
  | _, [] => []
  | i, piece :: pieces => i :: startsFrom (i + piece.bytes.length) pieces

/-- A word occurs where the pieces start that a text is cut into. -/
theorem offsetsFrom_eq_startsFrom (full : word ≠ []) (cut : cuts word k s = first :: pieces) :
    offsetsFrom word i k s = startsFrom (i + first.bytes.length) pieces := by
  induction s generalizing i k first pieces with
  | nil =>
    rw [cuts_nil] at cut
    obtain ⟨rfl, rfl⟩ := List.cons.inj cut
    cases k <;> simp [offsetsFrom, startsFrom, full]
  | cons c s ih =>
    have further {k : Nat} {head : Text} {tail : List Text} (inner : cuts word k s = head :: tail) :
        offsetsFrom word (i + c.utf8Size) k s = startsFrom (i + (bytes (c :: head)).length) tail := by
      rw [ih inner, length_bytes_cons, Nat.add_assoc]
    cases k with
    | succ k =>
      obtain ⟨head, tail, inner⟩ := List.exists_cons_of_ne_nil (cuts_ne_nil word k s)
      rw [cuts_succ, inner, List.modifyHead_cons] at cut
      obtain ⟨rfl, rfl⟩ := List.cons.inj cut
      exact further inner
    | zero =>
      rw [offsetsFrom]
      cases hit : word.isPrefixOf (c :: s) with
      | false =>
        obtain ⟨head, tail, inner⟩ := List.exists_cons_of_ne_nil (cuts_ne_nil word 0 s)
        rw [cuts_of_miss hit, inner, List.modifyHead_cons] at cut
        obtain ⟨rfl, rfl⟩ := List.cons.inj cut
        exact further inner
      | true =>
        obtain ⟨head, tail, inner⟩ := List.exists_cons_of_ne_nil (cuts_ne_nil word (word.length - 1) s)
        rw [cuts_of_hit hit, inner, List.modifyHead_cons] at cut
        obtain ⟨rfl, rfl⟩ := List.cons.inj cut
        exact congrArg (i :: ·) (further inner)

/-- Each start with the next one, and the last with the end. -/
def spans (size : Nat) : List Nat → List (Nat × Nat)
  | [] => []
  | i :: later => (i, later.head?.getD size) :: spans size later

/-- Pieces in a row are the slices between their starts. -/
theorem map_slice?_spans (front : Text) (pieces : List Text) :
    (spans (front ++ pieces.flatten).bytes.length (startsFrom front.bytes.length pieces)).map
        (fun span => slice? (front ++ pieces.flatten) span.1 span.2) = pieces.map some := by
  induction pieces generalizing front with
  | nil => rfl
  | cons piece pieces ih =>
    have next : front.bytes.length + piece.bytes.length = (front ++ piece).bytes.length := by simp
    have stop : (startsFrom (front ++ piece).bytes.length pieces).head?.getD
        (front ++ piece ++ pieces.flatten).bytes.length = (front ++ piece).bytes.length := by
      cases pieces <;> simp [startsFrom]
    rw [List.flatten_cons, ← List.append_assoc, startsFrom, next, spans, stop, List.map_cons,
      slice?_append, ih, List.map_cons]

end NativeFreeze.Text
