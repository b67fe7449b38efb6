import NativeFreeze.Text.Utf8

/-!
# Texts read back from their bytes

A text that was written in UTF-8 is read back as it was. The bytes of one character are read as that
character, whatever stands behind them; so the bytes of a text are read character by character. Texts
whose characters have the same sizes are as long in bytes.
-/

namespace NativeFreeze.Utf8

variable {b b₁ b₂ b₃ lo hi : UInt8} {n v : Nat}

/-! ## Single bytes -/

theorem toNat_byte (h : n < 256) : (UInt8.ofNat n).toNat = n := by
  simp [UInt8.toNat_ofNat', Nat.mod_eq_of_lt h]

theorem toNat_low (b : UInt8) : low b = b.toNat % 64 := by
  rw [low, UInt8.toNat_and]
  exact Nat.and_two_pow_sub_one_eq_mod _ 6

theorem isContinuation_byte (h : n < 64) : isContinuation (UInt8.ofNat (n + 128)) = true := by
  have byte : (UInt8.ofNat (n + 128)).toNat = n + 128 := toNat_byte (by omega)
  simp only [isContinuation, Bool.and_eq_true, decide_eq_true_eq, UInt8.le_iff_toNat_le, byte]
  simp
  omega

theorem lead?_eq (b : UInt8) : lead? b =
    if 0xc2 ≤ b.toNat ∧ b.toNat ≤ 0xdf then some (1, 0x80, 0xbf)
    else if b.toNat = 0xe0 then some (2, 0xa0, 0xbf)
    else if b.toNat = 0xed then some (2, 0x80, 0x9f)
    else if 0xe1 ≤ b.toNat ∧ b.toNat ≤ 0xef then some (2, 0x80, 0xbf)
    else if b.toNat = 0xf0 then some (3, 0x90, 0xbf)
    else if 0xf1 ≤ b.toNat ∧ b.toNat ≤ 0xf3 then some (3, 0x80, 0xbf)
    else if b.toNat = 0xf4 then some (3, 0x80, 0x8f)
    else none := by
  simp [lead?, UInt8.le_iff_toNat_le, ← UInt8.toNat_inj]

theorem not_ascii (h : 0x80 ≤ b.toNat) : ¬b < 0x80 := by
  rw [UInt8.lt_iff_toNat_lt, Nat.not_lt]
  exact h

theorem not_outside (above : lo.toNat ≤ b.toNat) (below : b.toNat ≤ hi.toNat) :
    ¬(decide (b < lo) || decide (hi < b)) = true := by
  simp only [UInt8.lt_iff_toNat_lt, Bool.or_eq_true, decide_eq_true_eq]
  omega

/-! ## One character -/

theorem next_one (short : v < 0x80) (rest : Bytes) :
    next (UInt8.ofNat v) rest = (some (Char.ofNat v), 0) := by
  have byte : (UInt8.ofNat v).toNat = v := toNat_byte (by omega)
  have ascii : UInt8.ofNat v < 0x80 := by
    rw [UInt8.lt_iff_toNat_lt, byte]
    exact short
  rw [next, if_pos ascii, byte]

theorem next_two (least : 0x80 ≤ v) (most : v ≤ 0x7ff) (rest : Bytes) :
    next (UInt8.ofNat (v / 64 % 32 + 192)) (UInt8.ofNat (v % 64 + 128) :: rest) =
      (some (Char.ofNat v), 1) := by
  have first : (UInt8.ofNat (v / 64 % 32 + 192)).toNat = v / 64 + 192 :=
    (toNat_byte (by omega)).trans (by omega)
  have second : (UInt8.ofNat (v % 64 + 128)).toNat = v % 64 + 128 := toNat_byte (by omega)
  have head : lead? (UInt8.ofNat (v / 64 % 32 + 192)) = some (1, 0x80, 0xbf) := by
    rw [lead?_eq, first, if_pos (by omega)]
  have bits : (UInt8.ofNat (v / 64 % 32 + 192) &&& 0x1f).toNat = v / 64 := by
    rw [UInt8.toNat_and, first]
    exact (Nat.and_two_pow_sub_one_eq_mod _ 5).trans (by omega)
  have above : (0x80 : UInt8).toNat ≤ v % 64 + 128 := by simp
  have below : v % 64 + 128 ≤ (0xbf : UInt8).toNat := by simp; omega
  have value : v / 64 * 64 + (v % 64 + 128) % 64 = v := by omega
  unfold next
  rw [if_neg (not_ascii (by omega)), head]
  dsimp only
  rw [if_neg (not_outside (by omega) (by omega)), if_pos rfl, bits, toNat_low, second, value]

theorem next_three (least : 0x800 ≤ v) (most : v ≤ 0xffff) (char : v < 0xd800 ∨ 0xdfff < v)
    (rest : Bytes) :
    next (UInt8.ofNat (v / 4096 % 16 + 224))
        (UInt8.ofNat (v / 64 % 64 + 128) :: UInt8.ofNat (v % 64 + 128) :: rest) =
      (some (Char.ofNat v), 2) := by
  have first : (UInt8.ofNat (v / 4096 % 16 + 224)).toNat = v / 4096 + 224 :=
    (toNat_byte (by omega)).trans (by omega)
  have second : (UInt8.ofNat (v / 64 % 64 + 128)).toNat = v / 64 % 64 + 128 :=
    toNat_byte (by omega)
  have third : (UInt8.ofNat (v % 64 + 128)).toNat = v % 64 + 128 := toNat_byte (by omega)
  -- The ranges of the second byte leave out overlong forms and surrogates.
  have head : ∃ lo hi, lead? (UInt8.ofNat (v / 4096 % 16 + 224)) = some (2, lo, hi) ∧
      lo.toNat ≤ v / 64 % 64 + 128 ∧ v / 64 % 64 + 128 ≤ hi.toNat := by
    rw [lead?_eq, first, if_neg (by omega)]
    by_cases low : v / 4096 + 224 = 0xe0
    · refine ⟨0xa0, 0xbf, if_pos low, ?_, ?_⟩ <;> simp <;> omega
    rw [if_neg low]
    by_cases surrogate : v / 4096 + 224 = 0xed
    · refine ⟨0x80, 0x9f, if_pos surrogate, ?_, ?_⟩ <;> simp
      omega
    rw [if_neg surrogate, if_pos (by omega)]
    refine ⟨0x80, 0xbf, rfl, ?_, ?_⟩ <;> simp
    omega
  obtain ⟨lo, hi, head, above, below⟩ := head
  have bits : (UInt8.ofNat (v / 4096 % 16 + 224) &&& 0x0f).toNat = v / 4096 := by
    rw [UInt8.toNat_and, first]
    exact (Nat.and_two_pow_sub_one_eq_mod _ 4).trans (by omega)
  have value : (v / 4096 * 64 + (v / 64 % 64 + 128) % 64) * 64 + (v % 64 + 128) % 64 = v := by omega
  unfold next
  rw [if_neg (not_ascii (by omega)), head]
  dsimp only
  rw [if_neg (not_outside (by omega) (by omega)), if_neg (by decide),
    if_neg (by rw [isContinuation_byte (by omega)]; decide), if_pos rfl, bits, toNat_low, toNat_low,
    second, third, value]

theorem next_four (least : 0x10000 ≤ v) (most : v ≤ 0x10ffff) (rest : Bytes) :
    next (UInt8.ofNat (v / 262144 % 8 + 240))
        (UInt8.ofNat (v / 4096 % 64 + 128) :: UInt8.ofNat (v / 64 % 64 + 128) ::
          UInt8.ofNat (v % 64 + 128) :: rest) =
      (some (Char.ofNat v), 3) := by
  have first : (UInt8.ofNat (v / 262144 % 8 + 240)).toNat = v / 262144 + 240 :=
    (toNat_byte (by omega)).trans (by omega)
  have second : (UInt8.ofNat (v / 4096 % 64 + 128)).toNat = v / 4096 % 64 + 128 :=
    toNat_byte (by omega)
  have third : (UInt8.ofNat (v / 64 % 64 + 128)).toNat = v / 64 % 64 + 128 :=
    toNat_byte (by omega)
  have fourth : (UInt8.ofNat (v % 64 + 128)).toNat = v % 64 + 128 := toNat_byte (by omega)
  -- The ranges of the second byte leave out overlong forms and what lies beyond the last character.
  have head : ∃ lo hi, lead? (UInt8.ofNat (v / 262144 % 8 + 240)) = some (3, lo, hi) ∧
      lo.toNat ≤ v / 4096 % 64 + 128 ∧ v / 4096 % 64 + 128 ≤ hi.toNat := by
    rw [lead?_eq, first, if_neg (by omega), if_neg (by omega), if_neg (by omega), if_neg (by omega)]
    by_cases low : v / 262144 + 240 = 0xf0
    · refine ⟨0x90, 0xbf, if_pos low, ?_, ?_⟩ <;> simp <;> omega
    rw [if_neg low]
    by_cases middle : 0xf1 ≤ v / 262144 + 240 ∧ v / 262144 + 240 ≤ 0xf3
    · refine ⟨0x80, 0xbf, if_pos middle, ?_, ?_⟩ <;> simp
      omega
    rw [if_neg middle, if_pos (by omega)]
    refine ⟨0x80, 0x8f, rfl, ?_, ?_⟩ <;> simp
    omega
  obtain ⟨lo, hi, head, above, below⟩ := head
  have bits : (UInt8.ofNat (v / 262144 % 8 + 240) &&& 0x07).toNat = v / 262144 := by
    rw [UInt8.toNat_and, first]
    exact (Nat.and_two_pow_sub_one_eq_mod _ 3).trans (by omega)
  have value : ((v / 262144 * 64 + (v / 4096 % 64 + 128) % 64) * 64 + (v / 64 % 64 + 128) % 64) * 64 +
      (v % 64 + 128) % 64 = v := by omega
  unfold next
  rw [if_neg (not_ascii (by omega)), head]
  dsimp only
  rw [if_neg (not_outside (by omega) (by omega)), if_neg (by decide),
    if_neg (by rw [isContinuation_byte (by omega)]; decide), if_neg (by decide),
    if_neg (by rw [isContinuation_byte (by omega)]; decide), bits, toNat_low, toNat_low, toNat_low,
    second, third, fourth, value]

/-- The bytes of a character are read as the character, whatever follows. -/
theorem next_encode (c : Char) : ∃ b more, String.utf8EncodeChar c = b :: more ∧
    ∀ rest, next b (more ++ rest) = (some c, more.length) := by
  have char : Char.ofNat c.val.toNat = c := Char.ofNat_toNat c
  have valid : c.val.toNat < 0xd800 ∨ 0xdfff < c.val.toNat ∧ c.val.toNat < 0x110000 := c.valid
  unfold String.utf8EncodeChar
  dsimp only
  generalize c.val.toNat = v at char valid
  rw [← char]
  by_cases one : v ≤ 127
  · rw [if_pos one]
    exact ⟨_, [], rfl, next_one (by omega)⟩
  rw [if_neg one]
  by_cases two : v ≤ 2047
  · rw [if_pos two]
    exact ⟨_, [_], rfl, next_two (by omega) two⟩
  rw [if_neg two]
  by_cases three : v ≤ 65535
  · rw [if_pos three]
    exact ⟨_, [_, _], rfl, next_three (by omega) three (by omega)⟩
  rw [if_neg three]
  exact ⟨_, [_, _, _], rfl, next_four (by omega) (by omega)⟩

theorem isContinuation_eq_false (h : b.toNat < 0x80 ∨ 0xc0 ≤ b.toNat) : isContinuation b = false := by
  rw [isContinuation, Bool.and_eq_false_iff, decide_eq_false_iff_not, decide_eq_false_iff_not,
    UInt8.le_iff_toNat_le, UInt8.le_iff_toNat_le]
  have least : (0x80 : UInt8).toNat = 0x80 := rfl
  have most : (0xbf : UInt8).toNat = 0xbf := rfl
  omega

/-- A character is a byte that starts it and bytes that go on; an ASCII character is its own byte. -/
theorem exists_encodeChar (c : Char) : ∃ b more, String.utf8EncodeChar c = b :: more ∧
    (b.toNat = c.toNat ∧ c.toNat < 0x80 ∨ 0xc0 ≤ b.toNat ∧ 0x80 ≤ c.toNat) ∧
    ∀ d ∈ more, isContinuation d = true := by
  have goOn (ns : List Nat) :
      ∀ d ∈ ns.map fun n => UInt8.ofNat (n % 64 + 128), isContinuation d = true := by
    intro d mem
    obtain ⟨n, -, rfl⟩ := List.mem_map.mp mem
    exact isContinuation_byte (Nat.mod_lt n (by decide))
  have value : c.toNat = c.val.toNat := rfl
  rw [value]
  unfold String.utf8EncodeChar
  dsimp only
  generalize c.val.toNat = v
  by_cases one : v ≤ 127
  · rw [if_pos one]
    exact ⟨_, [], rfl, .inl ⟨toNat_byte (by omega), by omega⟩, goOn []⟩
  rw [if_neg one]
  by_cases two : v ≤ 2047
  · rw [if_pos two]
    refine ⟨_, _, rfl, .inr ⟨?_, by omega⟩, goOn [v]⟩
    rw [toNat_byte (by omega)]
    omega
  rw [if_neg two]
  by_cases three : v ≤ 65535
  · rw [if_pos three]
    refine ⟨_, _, rfl, .inr ⟨?_, by omega⟩, goOn [v / 64, v]⟩
    rw [toNat_byte (by omega)]
    omega
  rw [if_neg three]
  refine ⟨_, _, rfl, .inr ⟨?_, by omega⟩, goOn [v / 4096, v / 64, v]⟩
  rw [toNat_byte (by omega)]
  omega

/-! ## Whole texts -/

theorem scan_length (more rest : Bytes) : scan more.length (more ++ rest) = scan 0 rest := by
  induction more with
  | nil => rfl
  | cons b more ih => exact ih

theorem scan_encode (s : Text) : scan 0 (encode s) = s.map some := by
  induction s with
  | nil => rfl
  | cons c s ih =>
    obtain ⟨b, more, bytes, read⟩ := next_encode c
    have split : encode (c :: s) = b :: (more ++ encode s) := by
      rw [encode, List.flatMap_cons, bytes]
      rfl
    rw [split, scan, read, scan_length, ih, List.map_cons]

/-- A text is read back from its bytes. -/
theorem decode?_encode (s : Text) : decode? (encode s) = some s := by
  rw [decode?, scan_encode]
  induction s with
  | nil => rfl
  | cons c s ih => simp [ih]

end NativeFreeze.Utf8

namespace NativeFreeze.Text

variable {s : Text}

/-! ## Bytes of texts -/

@[simp]
theorem bytes_nil : bytes [] = [] := rfl

theorem bytes_cons (c : Char) (s : Text) : bytes (c :: s) = String.utf8EncodeChar c ++ s.bytes :=
  List.flatMap_cons

@[simp]
theorem bytes_append (s t : Text) : bytes (s ++ t) = s.bytes ++ t.bytes :=
  List.flatMap_append

theorem length_bytes_cons (c : Char) (s : Text) :
    (bytes (c :: s)).length = c.utf8Size + s.bytes.length := by
  rw [bytes_cons, List.length_append, String.length_utf8EncodeChar]

/-- Characters of the same size take as many bytes. -/
theorem length_bytes_map {f : Char → Char} (same : ∀ c, (f c).utf8Size = c.utf8Size) (s : Text) :
    (bytes (s.map f)).length = s.bytes.length := by
  induction s with
  | nil => rfl
  | cons c s ih => rw [List.map_cons, length_bytes_cons, length_bytes_cons, ih, same]

theorem length_bytes_pos (full : s ≠ []) : 0 < s.bytes.length := by
  obtain ⟨c, r, rfl⟩ := List.exists_cons_of_ne_nil full
  rw [length_bytes_cons]
  exact Nat.add_pos_left c.utf8Size_pos _

theorem getElem?_bytes_append (front rest : Text) (i : Nat) :
    (front ++ rest).bytes[front.bytes.length + i]? = rest.bytes[i]? := by
  rw [bytes_append, List.getElem?_append_right (Nat.le_add_right _ i), Nat.add_sub_cancel_left]

end NativeFreeze.Text
