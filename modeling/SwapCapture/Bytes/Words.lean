/-
Fixed-width words as bytes, in both orders.

The capture file and the swap record store the low byte of a word first; the headers of a
frame are in network order, the high byte first.  This file holds the two ways to write a
word and the two ways to read one back at an offset:

* `le16`, `le32`, `le64`, `be16`, `be32` — a word as its bytes;
* `le16At`, `le32At`, `le64At`, `be16At`, `be32At` — the word that starts at an offset;
* `overwrite?` — a field written over the bytes of a buffer, refused where it does not fit;
* `overwrite16?`, `overwrite32?` — the same for a word in network order.
-/
namespace SwapCapture

abbrev Bytes := List UInt8

namespace Bytes

/-- The two bytes of `v`, low byte first. -/
def le16 (v : UInt16) : Bytes := [v.toUInt8, (v >>> 8).toUInt8]

/-- The four bytes of `v`, low byte first. -/
def le32 (v : UInt32) : Bytes :=
  [v.toUInt8, (v >>> 8).toUInt8, (v >>> 16).toUInt8, (v >>> 24).toUInt8]

/-- The eight bytes of `v`, low byte first. -/
def le64 (v : UInt64) : Bytes :=
  [v.toUInt8, (v >>> 8).toUInt8, (v >>> 16).toUInt8, (v >>> 24).toUInt8,
    (v >>> 32).toUInt8, (v >>> 40).toUInt8, (v >>> 48).toUInt8, (v >>> 56).toUInt8]

/-- The two bytes of `v`, high byte first. -/
def be16 (v : UInt16) : Bytes := [(v >>> 8).toUInt8, v.toUInt8]

/-- The four bytes of `v`, high byte first. -/
def be32 (v : UInt32) : Bytes :=
  [(v >>> 24).toUInt8, (v >>> 16).toUInt8, (v >>> 8).toUInt8, v.toUInt8]

@[simp] theorem length_le16 (v : UInt16) : (le16 v).length = 2 := rfl

@[simp] theorem length_le32 (v : UInt32) : (le32 v).length = 4 := rfl

@[simp] theorem length_le64 (v : UInt64) : (le64 v).length = 8 := rfl

@[simp] theorem length_be16 (v : UInt16) : (be16 v).length = 2 := rfl

@[simp] theorem length_be32 (v : UInt32) : (be32 v).length = 4 := rfl

/-- The byte at `offset`; past the end it is zero, as in a buffer padded with zeros. -/
def byteAt (bytes : Bytes) (offset : Nat) : UInt8 := bytes.getD offset 0

/-- The word whose low byte is at `offset` and whose high byte follows. -/
def le16At (bytes : Bytes) (offset : Nat) : UInt16 :=
  (byteAt bytes offset).toUInt16 ||| (byteAt bytes (offset + 1)).toUInt16 <<< 8

/-- The word whose four bytes start at `offset`, low byte first. -/
def le32At (bytes : Bytes) (offset : Nat) : UInt32 :=
  (le16At bytes offset).toUInt32 ||| (le16At bytes (offset + 2)).toUInt32 <<< 16

/-- The word whose eight bytes start at `offset`, low byte first. -/
def le64At (bytes : Bytes) (offset : Nat) : UInt64 :=
  (le32At bytes offset).toUInt64 ||| (le32At bytes (offset + 4)).toUInt64 <<< 32

/-- The word whose high byte is at `offset` and whose low byte follows. -/
def be16At (bytes : Bytes) (offset : Nat) : UInt16 :=
  (byteAt bytes offset).toUInt16 <<< 8 ||| (byteAt bytes (offset + 1)).toUInt16

/-- The word whose four bytes start at `offset`, high byte first. -/
def be32At (bytes : Bytes) (offset : Nat) : UInt32 :=
  (be16At bytes offset).toUInt32 <<< 16 ||| (be16At bytes (offset + 2)).toUInt32

/-- `field` written over `buffer` from `offset` on.  A field that does not lie within the
buffer is refused, so that a buffer never changes its length. -/
def overwrite? (buffer : Bytes) (offset : Nat) (field : Bytes) : Option Bytes :=
  if offset + field.length ≤ buffer.length then
    some (buffer.take offset ++ field ++ buffer.drop (offset + field.length))
  else none

/-- `be16 v` written over `buffer` from `offset` on. -/
def overwrite16? (buffer : Bytes) (offset : Nat) (v : UInt16) : Option Bytes :=
  overwrite? buffer offset (be16 v)

def overwrite32? (buffer : Bytes) (offset : Nat) (v : UInt32) : Option Bytes :=
  overwrite? buffer offset (be32 v)

theorem isSome_overwrite? {buffer field : Bytes} {offset : Nat}
    (fits : offset + field.length ≤ buffer.length) :
    (overwrite? buffer offset field).isSome := by
  rw [overwrite?, if_pos fits]
  rfl

theorem length_of_overwrite? {buffer field result : Bytes} {offset : Nat}
    (h : overwrite? buffer offset field = some result) : result.length = buffer.length := by
  unfold overwrite? at h
  split at h
  · next fits =>
    cases h
    simp only [List.length_append, List.length_take, List.length_drop]
    omega
  · cases h

end Bytes

end SwapCapture
