import NativeFreeze.Text.Utf8

/-!
# Archives

An archive is a list of named contents. `Archive.bytes` lays it out as a zip file whose members are
stored without compression.
-/

namespace NativeFreeze

/-- A member of an archive: its name and what it holds. -/
structure Member where
  name : Text
  content : Bytes
  deriving DecidableEq, Repr

/-- An archive, its members in order. -/
abbrev Archive := List Member

namespace Archive

/-- The names of the members. -/
def names (a : Archive) : List Text :=
  a.map (·.name)

/-- One step of the checksum: shifts one bit out of the remainder. -/
def checksumBit (r : UInt32) : UInt32 :=
  if r &&& 1 = 1 then (r >>> 1) ^^^ 0xedb88320 else r >>> 1

/-- The remainder after one more byte. -/
def checksumByte (r : UInt32) (b : UInt8) : UInt32 :=
  Nat.repeat checksumBit 8 (r ^^^ b.toUInt32)

/-- The cyclic redundancy check of zip files. -/
def checksum (content : Bytes) : UInt32 :=
  (content.foldl checksumByte 0xffffffff) ^^^ 0xffffffff

/-- The lowest `width` bytes of `n`, the least significant first. -/
def littleEndian : (width n : Nat) → Bytes
  | 0, _ => []
  | width + 1, n => UInt8.ofNat (n % 256) :: littleEndian width (n / 256)

/-- The fields that the two headers of a member share: version, the mark of a UTF-8 name, method,
date, checksum and sizes. -/
def Member.description (m : Member) : Bytes :=
  littleEndian 2 20 ++ littleEndian 2 0x800 ++ littleEndian 2 0 ++ littleEndian 2 0 ++
    littleEndian 2 0x21 ++ littleEndian 4 (checksum m.content).toNat ++
    littleEndian 4 m.content.length ++ littleEndian 4 m.content.length ++
    littleEndian 2 m.name.bytes.length ++ littleEndian 2 0

/-- The member itself, behind its local header. -/
def Member.stored (m : Member) : Bytes :=
  littleEndian 4 0x04034b50 ++ Member.description m ++ m.name.bytes ++ m.content

/-- The entry of the central directory for a member stored at `offset`. -/
def Member.listed (m : Member) (offset : Nat) : Bytes :=
  littleEndian 4 0x02014b50 ++ littleEndian 2 20 ++ Member.description m ++ littleEndian 2 0 ++
    littleEndian 2 0 ++ littleEndian 2 0 ++ littleEndian 4 0 ++ littleEndian 4 offset ++
    m.name.bytes

/-- The central directory of members of which the first is stored at `offset`. -/
def directory : Nat → Archive → Bytes
  | _, [] => []
  | offset, m :: ms =>
    Member.listed m offset ++ directory (offset + (Member.stored m).length) ms

/-- The zip file of an archive. -/
def bytes (a : Archive) : Bytes :=
  let stored := a.flatMap Member.stored
  let listing := directory 0 a
  stored ++ listing ++ littleEndian 4 0x06054b50 ++ littleEndian 2 0 ++ littleEndian 2 0 ++
    littleEndian 2 a.length ++ littleEndian 2 a.length ++ littleEndian 4 listing.length ++
    littleEndian 4 stored.length ++ littleEndian 2 0

end Archive

end NativeFreeze
