import NativeFreeze.Proofs.Text.Split
import NativeFreeze.Proofs.Text.Utf8

/-!
# Texts up to case

Lowering turns ASCII capitals into small letters and leaves all other characters alone. So it keeps the
length of a text, in characters and in bytes, and neither makes nor removes a separator: a text can be
lowered before or after it is split or trimmed.
-/

namespace NativeFreeze.Text

variable {s t front rest : Text} {c sep : Char}

/-! ## Characters -/

theorem toNat_toLower (c : Char) : c.toLower.toNat =
    if 65 ≤ c.toNat ∧ c.toNat ≤ 90 then c.toNat + 32 else c.toNat := by
  have capital : (c.val ≥ 'A'.val ∧ c.val ≤ 'Z'.val) ↔ (65 ≤ c.toNat ∧ c.toNat ≤ 90) := by
    simp [UInt32.le_iff_toNat_le]
  unfold Char.toLower
  split
  · rename_i upper
    have range := capital.mp upper
    have sum : (c.val + ('a'.val - 'A'.val)).toNat = c.toNat + 32 := by
      simp [UInt32.toNat_add]
      omega
    rw [if_pos range]
    exact sum
  · rename_i other
    rw [if_neg (other ∘ capital.mpr)]

theorem utf8Size_toLower (c : Char) : c.toLower.utf8Size = c.utf8Size := by
  by_cases upper : 65 ≤ c.toNat ∧ c.toNat ≤ 90
  · have width (d : Char) (hd : d.toNat ≤ 127) : d.utf8Size = 1 := by
      apply Char.utf8Size_eq_one_iff.mpr
      simpa [UInt32.le_iff_toNat_le] using hd
    rw [width c (by omega), width c.toLower (by rw [toNat_toLower, if_pos upper]; omega)]
  · have same : c.toLower = c := Char.toNat_inj.mp (by rw [toNat_toLower, if_neg upper])
    rw [same]

/-- A separator that is no letter stays one, and no other character becomes one. -/
theorem toLower_eq_iff (letterless : sep.isAlpha = false) : c.toLower = sep ↔ c = sep := by
  have range : ¬(65 ≤ sep.toNat ∧ sep.toNat ≤ 90) ∧ ¬(97 ≤ sep.toNat ∧ sep.toNat ≤ 122) := by
    unfold Char.isAlpha Char.isUpper Char.isLower at letterless
    simpa [UInt32.le_iff_toNat_le] using letterless
  rw [← Char.toNat_inj, ← Char.toNat_inj, toNat_toLower]
  split <;> omega

/-! ## Texts -/

@[simp]
theorem lower_nil : lower [] = [] := rfl

@[simp]
theorem lower_cons (c : Char) (s : Text) : lower (c :: s) = c.toLower :: lower s := rfl

@[simp]
theorem lower_append (s t : Text) : lower (s ++ t) = lower s ++ lower t :=
  List.map_append

theorem length_bytes_lower (s : Text) : (lower s).bytes.length = s.bytes.length :=
  length_bytes_map utf8Size_toLower s

/-- Texts that are equal up to case are as long in bytes. -/
theorem length_bytes_of_lower (same : lower s = lower t) : s.bytes.length = t.bytes.length := by
  rw [← length_bytes_lower s, same, length_bytes_lower]

/-- A text that is equal up to case to two texts in a row is cut where they meet. -/
theorem exists_append_of_lower (same : lower t = lower (front ++ rest)) :
    ∃ front' rest', t = front' ++ rest' ∧ lower front' = lower front ∧ lower rest' = lower rest := by
  rw [lower_append] at same
  exact List.map_eq_append_iff.mp same

theorem split_lower (letterless : sep.isAlpha = false) (s : Text) :
    split sep (lower s) = (split sep s).map lower := by
  have first (c : Char) (pieces : List Text) :
      consFirst c.toLower (pieces.map lower) = (consFirst c pieces).map lower := by
    cases pieces <;> rfl
  induction s with
  | nil => rfl
  | cons c s ih =>
    rw [split] at ih
    by_cases here : c = sep
    · simp [split, splitOn, here, (toLower_eq_iff letterless).mpr, ih]
    · have there : c.toLower ≠ sep := here ∘ (toLower_eq_iff letterless).mp
      simp [split, splitOn, here, there, ih, first]

theorem trimEnd_lower (letterless : sep.isAlpha = false) (s : Text) :
    trimEnd (· == sep) (lower s) = lower (trimEnd (· == sep) s) := by
  have told : (fun c : Char => c == sep) ∘ Char.toLower = fun c => c == sep := by
    funext c
    rw [Function.comp_apply, Bool.eq_iff_iff, beq_iff_eq, beq_iff_eq, toLower_eq_iff letterless]
  rw [trimEnd, trimEnd, lower, lower, ← List.map_reverse, List.dropWhile_map, told, List.map_reverse]

end NativeFreeze.Text
