/-
Words read back from bytes.

Every reader of `Bytes.Words` is first put into `Nat`, where a word is a sum of its bytes times
powers of 256; what was written is then read back by arithmetic alone:

* `toNat_le16At`, `toNat_be16At` and those of the longer words — the number that a reader gives;
* `le32At_le32`, `le64At_le64`, `be16At_be16`, `be32At_be32` — a word in front is read back;
* `le32At_of_take`, `le64At_of_take`, `be16At_of_take`, `be32At_of_take` — a word is read where its
  bytes lie;
* `drop_of_le16At`, `drop_of_le32At`, `drop_of_le64At` — a word that was read says which bytes are
  there;
* `cut?_append` — a front of known length is cut off exactly.
-/
import Mathlib.Algebra.Ring.Nat
import SwapCapture.Bytes.Words

namespace SwapCapture.Bytes

/-! ### Readers as numbers -/

theorem toNat_le16At (bytes : Bytes) (offset : Nat) :
    (le16At bytes offset).toNat
      = (byteAt bytes offset).toNat + 256 * (byteAt bytes (offset + 1)).toNat := by
  have low : (byteAt bytes offset).toNat < 2 ^ 8 := (byteAt bytes offset).toNat_lt
  have high : (byteAt bytes (offset + 1)).toNat < 2 ^ 8 := (byteAt bytes (offset + 1)).toNat_lt
  rw [le16At, UInt16.toNat_or, UInt16.toNat_shiftLeft]
  simp only [UInt8.toNat_toUInt16, UInt16.reduceToNat, Nat.reduceMod]
  rw [Nat.mod_eq_of_lt (by rw [Nat.shiftLeft_eq]; omega), Nat.or_comm,
    ← Nat.shiftLeft_add_eq_or_of_lt low, Nat.shiftLeft_eq]
  omega

theorem toNat_be16At (bytes : Bytes) (offset : Nat) :
    (be16At bytes offset).toNat
      = 256 * (byteAt bytes offset).toNat + (byteAt bytes (offset + 1)).toNat := by
  have high : (byteAt bytes offset).toNat < 2 ^ 8 := (byteAt bytes offset).toNat_lt
  have low : (byteAt bytes (offset + 1)).toNat < 2 ^ 8 := (byteAt bytes (offset + 1)).toNat_lt
  rw [be16At, UInt16.toNat_or, UInt16.toNat_shiftLeft]
  simp only [UInt8.toNat_toUInt16, UInt16.reduceToNat, Nat.reduceMod]
  rw [Nat.mod_eq_of_lt (by rw [Nat.shiftLeft_eq]; omega),
    ← Nat.shiftLeft_add_eq_or_of_lt low, Nat.shiftLeft_eq]
  omega

theorem toNat_le32At (bytes : Bytes) (offset : Nat) :
    (le32At bytes offset).toNat
      = (le16At bytes offset).toNat + 65536 * (le16At bytes (offset + 2)).toNat := by
  have low : (le16At bytes offset).toNat < 2 ^ 16 := (le16At bytes offset).toNat_lt
  have high : (le16At bytes (offset + 2)).toNat < 2 ^ 16 := (le16At bytes (offset + 2)).toNat_lt
  rw [le32At, UInt32.toNat_or, UInt32.toNat_shiftLeft]
  simp only [UInt16.toNat_toUInt32, UInt32.reduceToNat, Nat.reduceMod]
  rw [Nat.mod_eq_of_lt (by rw [Nat.shiftLeft_eq]; omega), Nat.or_comm,
    ← Nat.shiftLeft_add_eq_or_of_lt low, Nat.shiftLeft_eq]
  omega

theorem toNat_be32At (bytes : Bytes) (offset : Nat) :
    (be32At bytes offset).toNat
      = 65536 * (be16At bytes offset).toNat + (be16At bytes (offset + 2)).toNat := by
  have high : (be16At bytes offset).toNat < 2 ^ 16 := (be16At bytes offset).toNat_lt
  have low : (be16At bytes (offset + 2)).toNat < 2 ^ 16 := (be16At bytes (offset + 2)).toNat_lt
  rw [be32At, UInt32.toNat_or, UInt32.toNat_shiftLeft]
  simp only [UInt16.toNat_toUInt32, UInt32.reduceToNat, Nat.reduceMod]
  rw [Nat.mod_eq_of_lt (by rw [Nat.shiftLeft_eq]; omega),
    ← Nat.shiftLeft_add_eq_or_of_lt low, Nat.shiftLeft_eq]
  omega

theorem toNat_le64At (bytes : Bytes) (offset : Nat) :
    (le64At bytes offset).toNat
      = (le32At bytes offset).toNat + 2 ^ 32 * (le32At bytes (offset + 4)).toNat := by
  have low : (le32At bytes offset).toNat < 2 ^ 32 := (le32At bytes offset).toNat_lt
  have high : (le32At bytes (offset + 4)).toNat < 2 ^ 32 := (le32At bytes (offset + 4)).toNat_lt
  rw [le64At, UInt64.toNat_or, UInt64.toNat_shiftLeft]
  simp only [UInt32.toNat_toUInt64, UInt64.reduceToNat, Nat.reduceMod]
  rw [Nat.mod_eq_of_lt (by rw [Nat.shiftLeft_eq]; omega), Nat.or_comm,
    ← Nat.shiftLeft_add_eq_or_of_lt low, Nat.shiftLeft_eq]
  omega

/-! ### A word in front -/

theorem le32At_le32 (v : UInt32) (rest : Bytes) : le32At (le32 v ++ rest) 0 = v := by
  apply UInt32.toNat_inj.mp
  rw [toNat_le32At, toNat_le16At, toNat_le16At]
  show v.toUInt8.toNat + 256 * (v >>> 8).toUInt8.toNat
    + 65536 * ((v >>> 16).toUInt8.toNat + 256 * (v >>> 24).toUInt8.toNat) = v.toNat
  have bound := v.toNat_lt
  simp only [UInt32.toNat_toUInt8, UInt32.toNat_shiftRight, UInt32.reduceToNat, Nat.reduceMod,
    Nat.shiftRight_eq_div_pow, Nat.reducePow] at *
  omega

theorem le64At_le64 (v : UInt64) (rest : Bytes) : le64At (le64 v ++ rest) 0 = v := by
  apply UInt64.toNat_inj.mp
  rw [toNat_le64At, toNat_le32At, toNat_le32At, toNat_le16At, toNat_le16At, toNat_le16At,
    toNat_le16At]
  show v.toUInt8.toNat + 256 * (v >>> 8).toUInt8.toNat
      + 65536 * ((v >>> 16).toUInt8.toNat + 256 * (v >>> 24).toUInt8.toNat)
      + 2 ^ 32 * ((v >>> 32).toUInt8.toNat + 256 * (v >>> 40).toUInt8.toNat
        + 65536 * ((v >>> 48).toUInt8.toNat + 256 * (v >>> 56).toUInt8.toNat)) = v.toNat
  have bound := v.toNat_lt
  simp only [UInt64.toNat_toUInt8, UInt64.toNat_shiftRight, UInt64.reduceToNat, Nat.reduceMod,
    Nat.shiftRight_eq_div_pow, Nat.reducePow] at *
  omega

theorem be16At_be16 (v : UInt16) (rest : Bytes) : be16At (be16 v ++ rest) 0 = v := by
  apply UInt16.toNat_inj.mp
  rw [toNat_be16At]
  show 256 * (v >>> 8).toUInt8.toNat + v.toUInt8.toNat = v.toNat
  have bound := v.toNat_lt
  simp only [UInt16.toNat_toUInt8, UInt16.toNat_shiftRight, UInt16.reduceToNat, Nat.reduceMod,
    Nat.shiftRight_eq_div_pow, Nat.reducePow] at *
  omega

theorem be32At_be32 (v : UInt32) (rest : Bytes) : be32At (be32 v ++ rest) 0 = v := by
  apply UInt32.toNat_inj.mp
  rw [toNat_be32At, toNat_be16At, toNat_be16At]
  show 65536 * (256 * (v >>> 24).toUInt8.toNat + (v >>> 16).toUInt8.toNat)
    + (256 * (v >>> 8).toUInt8.toNat + v.toUInt8.toNat) = v.toNat
  have bound := v.toNat_lt
  simp only [UInt32.toNat_toUInt8, UInt32.toNat_shiftRight, UInt32.reduceToNat, Nat.reduceMod,
    Nat.shiftRight_eq_div_pow, Nat.reducePow] at *
  omega

/-! ### A word at an offset -/

theorem byteAt_drop (bytes : Bytes) (offset n : Nat) :
    byteAt (bytes.drop offset) n = byteAt bytes (offset + n) := by
  rw [byteAt, byteAt, List.getD_eq_getElem?_getD, List.getD_eq_getElem?_getD, List.getElem?_drop]

theorem le16At_drop (bytes : Bytes) (offset n : Nat) :
    le16At (bytes.drop offset) n = le16At bytes (offset + n) := by
  simp only [le16At, byteAt_drop, Nat.add_assoc]

theorem le32At_drop (bytes : Bytes) (offset n : Nat) :
    le32At (bytes.drop offset) n = le32At bytes (offset + n) := by
  simp only [le32At, le16At, byteAt_drop, Nat.add_assoc]

theorem le64At_drop (bytes : Bytes) (offset n : Nat) :
    le64At (bytes.drop offset) n = le64At bytes (offset + n) := by
  simp only [le64At, le32At_drop, Nat.add_assoc]

theorem be16At_drop (bytes : Bytes) (offset n : Nat) :
    be16At (bytes.drop offset) n = be16At bytes (offset + n) := by
  simp only [be16At, byteAt_drop, Nat.add_assoc]

theorem be32At_drop (bytes : Bytes) (offset n : Nat) :
    be32At (bytes.drop offset) n = be32At bytes (offset + n) := by
  simp only [be32At, be16At_drop, Nat.add_assoc]

/-- Bytes that begin with `field` at `offset` are `field` and what is left behind it. -/
theorem drop_eq_append_of_take {bytes field : Bytes} {offset n : Nat}
    (h : (bytes.drop offset).take n = field) : ∃ rest, bytes.drop offset = field ++ rest :=
  ⟨(bytes.drop offset).drop n, by rw [← h, List.take_append_drop]⟩

theorem le32At_of_take {bytes : Bytes} {offset : Nat} {v : UInt32}
    (h : (bytes.drop offset).take 4 = le32 v) : le32At bytes offset = v := by
  obtain ⟨rest, split⟩ := drop_eq_append_of_take h
  have read := le32At_drop bytes offset 0
  rw [split, le32At_le32] at read
  exact read.symm

theorem le64At_of_take {bytes : Bytes} {offset : Nat} {v : UInt64}
    (h : (bytes.drop offset).take 8 = le64 v) : le64At bytes offset = v := by
  obtain ⟨rest, split⟩ := drop_eq_append_of_take h
  have read := le64At_drop bytes offset 0
  rw [split, le64At_le64] at read
  exact read.symm

theorem be16At_of_take {bytes : Bytes} {offset : Nat} {v : UInt16}
    (h : (bytes.drop offset).take 2 = be16 v) : be16At bytes offset = v := by
  obtain ⟨rest, split⟩ := drop_eq_append_of_take h
  have read := be16At_drop bytes offset 0
  rw [split, be16At_be16] at read
  exact read.symm

theorem be32At_of_take {bytes : Bytes} {offset : Nat} {v : UInt32}
    (h : (bytes.drop offset).take 4 = be32 v) : be32At bytes offset = v := by
  obtain ⟨rest, split⟩ := drop_eq_append_of_take h
  have read := be32At_drop bytes offset 0
  rw [split, be32At_be32] at read
  exact read.symm

/-! ### The bytes of a word that was read -/

theorem le16_le16At (a b : UInt8) (rest : Bytes) : le16 (le16At (a :: b :: rest) 0) = [a, b] := by
  have value : (le16At (a :: b :: rest) 0).toNat = a.toNat + 256 * b.toNat :=
    toNat_le16At (a :: b :: rest) 0
  generalize le16At (a :: b :: rest) 0 = v at value
  have a_lt := a.toNat_lt
  have b_lt := b.toNat_lt
  simp only [le16, List.cons.injEq, and_true, ← UInt8.toNat_inj, UInt16.toNat_toUInt8,
    UInt16.toNat_shiftRight, UInt16.reduceToNat, Nat.reduceMod, Nat.shiftRight_eq_div_pow,
    Nat.reducePow] at *
  omega

theorem le32_le32At (a b c d : UInt8) (rest : Bytes) :
    le32 (le32At (a :: b :: c :: d :: rest) 0) = [a, b, c, d] := by
  have value : (le32At (a :: b :: c :: d :: rest) 0).toNat
      = a.toNat + 256 * b.toNat + 65536 * (c.toNat + 256 * d.toNat) := by
    rw [toNat_le32At, toNat_le16At, toNat_le16At]
    rfl
  -- from here on the word is known by its value only
  generalize le32At (a :: b :: c :: d :: rest) 0 = v at value
  have a_lt := a.toNat_lt
  have b_lt := b.toNat_lt
  have c_lt := c.toNat_lt
  have d_lt := d.toNat_lt
  simp only [le32, List.cons.injEq, and_true, ← UInt8.toNat_inj, UInt32.toNat_toUInt8,
    UInt32.toNat_shiftRight, UInt32.reduceToNat, Nat.reduceMod, Nat.shiftRight_eq_div_pow,
    Nat.reducePow] at *
  omega

theorem be32_be32At (a b c d : UInt8) (rest : Bytes) :
    be32 (be32At (a :: b :: c :: d :: rest) 0) = [a, b, c, d] := by
  have value : (be32At (a :: b :: c :: d :: rest) 0).toNat
      = 65536 * (256 * a.toNat + b.toNat) + (256 * c.toNat + d.toNat) := by
    rw [toNat_be32At, toNat_be16At, toNat_be16At]
    rfl
  generalize be32At (a :: b :: c :: d :: rest) 0 = v at value
  have a_lt := a.toNat_lt
  have b_lt := b.toNat_lt
  have c_lt := c.toNat_lt
  have d_lt := d.toNat_lt
  simp only [be32, List.cons.injEq, and_true, ← UInt8.toNat_inj, UInt32.toNat_toUInt8,
    UInt32.toNat_shiftRight, UInt32.reduceToNat, Nat.reduceMod, Nat.shiftRight_eq_div_pow,
    Nat.reducePow] at *
  omega

/-- A word that `le16At` has read lies in front of what is behind it. -/
theorem drop_of_le16At {bytes : Bytes} {offset : Nat} {v : UInt16}
    (fits : offset + 2 ≤ bytes.length) (h : le16At bytes offset = v) :
    bytes.drop offset = le16 v ++ bytes.drop (offset + 2) := by
  obtain ⟨a, b, rest, split⟩ : ∃ a b rest, bytes.drop offset = a :: b :: rest := by
    have long : 2 ≤ (bytes.drop offset).length := by
      rw [List.length_drop]
      omega
    match bytes.drop offset, long with
    | a :: b :: rest, _ => exact ⟨a, b, rest, rfl⟩
  have read := le16At_drop bytes offset 0
  rw [Nat.add_zero, h, split] at read
  rw [← List.drop_drop, split, ← read, le16_le16At]
  rfl

theorem drop_of_le32At {bytes : Bytes} {offset : Nat} {v : UInt32}
    (fits : offset + 4 ≤ bytes.length) (h : le32At bytes offset = v) :
    bytes.drop offset = le32 v ++ bytes.drop (offset + 4) := by
  obtain ⟨a, b, c, d, rest, split⟩ :
      ∃ a b c d rest, bytes.drop offset = a :: b :: c :: d :: rest := by
    have long : 4 ≤ (bytes.drop offset).length := by
      rw [List.length_drop]
      omega
    match bytes.drop offset, long with
    | a :: b :: c :: d :: rest, _ => exact ⟨a, b, c, d, rest, rfl⟩
  have read := le32At_drop bytes offset 0
  rw [Nat.add_zero, h, split] at read
  rw [← List.drop_drop, split, ← read, le32_le32At]
  rfl

/-- The bytes of `v` are those of its two halves, `low` first. -/
theorem le64_of_halves {v : UInt64} {low high : UInt32}
    (h : v.toNat = low.toNat + 2 ^ 32 * high.toNat) : le64 v = le32 low ++ le32 high := by
  have low_lt := low.toNat_lt
  have high_lt := high.toNat_lt
  simp only [le64, le32, List.cons_append, List.nil_append, List.cons.injEq, and_true,
    ← UInt8.toNat_inj, UInt64.toNat_toUInt8, UInt64.toNat_shiftRight, UInt64.reduceToNat,
    UInt32.toNat_toUInt8, UInt32.toNat_shiftRight, UInt32.reduceToNat, Nat.reduceMod,
    Nat.shiftRight_eq_div_pow, Nat.reducePow] at *
  omega

theorem drop_of_le64At {bytes : Bytes} {offset : Nat} {v : UInt64}
    (fits : offset + 8 ≤ bytes.length) (h : le64At bytes offset = v) :
    bytes.drop offset = le64 v ++ bytes.drop (offset + 8) := by
  subst h
  rw [le64_of_halves (toNat_le64At bytes offset), List.append_assoc,
    ← drop_of_le32At (by omega) rfl, ← drop_of_le32At (by omega) rfl]

/-! ### Cutting -/

/-- The first `n` bytes and what lies behind them, if there are as many. -/
def cut? (n : Nat) (bytes : Bytes) : Option (Bytes × Bytes) :=
  if n ≤ bytes.length then some (bytes.take n, bytes.drop n) else none

theorem cut?_append {front : Bytes} {n : Nat} (h : front.length = n) (rest : Bytes) :
    cut? n (front ++ rest) = some (front, rest) := by
  subst h
  rw [cut?, if_pos (by simp), List.take_left, List.drop_left]

theorem length_of_cut? {n : Nat} {bytes front rest : Bytes}
    (h : cut? n bytes = some (front, rest)) : bytes.length = n + rest.length := by
  unfold cut? at h
  split at h
  · next fits =>
    cases h
    rw [List.length_drop]
    omega
  · cases h

end SwapCapture.Bytes
