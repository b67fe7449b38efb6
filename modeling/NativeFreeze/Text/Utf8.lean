import NativeFreeze.Text.Basic

/-!
# Texts as bytes

Files hold bytes, programs texts. `encode` writes a text in UTF-8. `decodeLossy` reads any bytes,
with one replacement character for each maximal piece that starts a character and does not finish
it; `decode?` refuses such bytes.
-/

namespace NativeFreeze

/-- The content of a file or stream. -/
abbrev Bytes := List UInt8

namespace Utf8

/-- The UTF-8 form of a text. -/
def encode (s : Text) : Bytes :=
  s.flatMap String.utf8EncodeChar

/-- A byte in the middle of a character. -/
def isContinuation (b : UInt8) : Bool :=
  0x80 ≤ b && b ≤ 0xbf

/-- For the first byte of a character of two or more bytes: how many bytes follow, and the range of
the first of them. The ranges keep out overlong forms, surrogates and what lies beyond the last
character. -/
def lead? (b : UInt8) : Option (Nat × UInt8 × UInt8) :=
  if 0xc2 ≤ b && b ≤ 0xdf then some (1, 0x80, 0xbf)
  else if b == 0xe0 then some (2, 0xa0, 0xbf)
  else if b == 0xed then some (2, 0x80, 0x9f)
  else if 0xe1 ≤ b && b ≤ 0xef then some (2, 0x80, 0xbf)
  else if b == 0xf0 then some (3, 0x90, 0xbf)
  else if 0xf1 ≤ b && b ≤ 0xf3 then some (3, 0x80, 0xbf)
  else if b == 0xf4 then some (3, 0x80, 0x8f)
  else none

/-- The low six bits of a byte. -/
def low (b : UInt8) : Nat :=
  (b &&& 0x3f).toNat

/-- The character that starts with byte `b`, or `none` where the bytes are malformed, together with
the number of bytes after `b` that belong to the character or the malformed piece. -/
def next (b : UInt8) (rest : Bytes) : Option Char × Nat :=
  if b < 0x80 then (some (Char.ofNat b.toNat), 0) else
  match lead? b with
  | none => (none, 0)
  | some (more, lo, hi) =>
    match rest with
    | [] => (none, 0)
    | b₁ :: rest =>
      if b₁ < lo || hi < b₁ then (none, 0) else
      if more = 1 then (some (Char.ofNat ((b &&& 0x1f).toNat * 64 + low b₁)), 1) else
      match rest with
      | [] => (none, 1)
      | b₂ :: rest =>
        if !isContinuation b₂ then (none, 1) else
        if more = 2 then
          (some (Char.ofNat (((b &&& 0x0f).toNat * 64 + low b₁) * 64 + low b₂)), 2) else
        match rest with
        | [] => (none, 2)
        | b₃ :: _ =>
          if !isContinuation b₃ then (none, 2) else
          (some (Char.ofNat ((((b &&& 0x07).toNat * 64 + low b₁) * 64 + low b₂) * 64 + low b₃)), 3)

/-- The characters of some bytes, `none` for each malformed piece; the first argument counts the
bytes that the previous character still takes. -/
def scan : Nat → Bytes → List (Option Char)
  | _, [] => []
  | k + 1, _ :: r => scan k r
  | 0, b :: r => (next b r).1 :: scan (next b r).2 r

/-- The text of some bytes, with `U+FFFD` for each malformed piece. -/
def decodeLossy (bytes : Bytes) : Text :=
  (scan 0 bytes).map (·.getD '\ufffd')

/-- The text of some bytes, if they are well formed. -/
def decode? (bytes : Bytes) : Option Text :=
  (scan 0 bytes).mapM id

end Utf8

/-- The bytes of a text. -/
def Text.bytes (s : Text) : Bytes :=
  Utf8.encode s

end NativeFreeze
