/-
The CRC-32 as the remainder of a polynomial.

The bits of some data, each byte from its lowest bit on, are the coefficients of a polynomial with the
highest one first.  It is moved up by 32 places, the 32 highest coefficients are complemented, and what
is left of it is divided by the generator of IEEE 802.3.  The checksum is the complement of the
remainder, and it has the highest coefficient as its lowest bit.

Long division works on lists of coefficients and shares nothing with the register of `Crc32`, which
holds the 32 highest coefficients that are still to be divided:

* `remainder` — what is left of a polynomial;
* `remainder_shift` — one bit that leaves the register is one step of the division;
* `of_eq_remainder` — the checksum of any data.
-/
import Mathlib.Algebra.Ring.Nat
import Mathlib.Logic.Function.Iterate
import SwapCapture.Bytes.Crc32

namespace SwapCapture.Crc32

/-- The `width` lowest bits of `n`, the lowest one first. -/
def bits : (width n : Nat) → List Bool
  | 0, _ => []
  | width + 1, n => n.testBit 0 :: bits width (n / 2)

/-- `xs` with `ys` added to its front, each coefficient modulo two. -/
def addFront : (xs ys : List Bool) → List Bool
  | x :: xs, y :: ys => (x ^^ y) :: addFront xs ys
  | xs, _ => xs

theorem addFront_nil (xs : List Bool) : addFront xs [] = xs := by
  cases xs with
  | nil => rfl
  | cons x xs => rfl

/-- The exponents in the generator, without the highest one, which is 32. -/
def exponents : List Nat := [26, 23, 22, 16, 12, 11, 10, 8, 7, 5, 4, 2, 1, 0]

/-- The coefficients of the generator behind its highest one. -/
def generator : List Bool := (List.range 32).map fun i => 31 - i ∈ exponents

@[simp] theorem length_addFront (xs ys : List Bool) : (addFront xs ys).length = xs.length := by
  fun_induction addFront xs ys with
  | case1 x xs y ys ih => rw [List.length_cons, ih, List.length_cons]
  | case2 => rfl

/-- What is left of a polynomial once multiples of the generator have been taken off until it has no
more than 32 coefficients. -/
def remainder : List Bool → List Bool
  | [] => []
  | c :: rest =>
    if rest.length < 32 then c :: rest
    else remainder (if c then addFront rest generator else rest)
termination_by coefficients => coefficients.length
decreasing_by
  split
  · rw [length_addFront]
    exact Nat.lt_succ_self _
  · exact Nat.lt_succ_self _

/-! ### Bits -/

@[simp] theorem length_bits (width n : Nat) : (bits width n).length = width := by
  induction width generalizing n with
  | zero => rfl
  | succ width ih => rw [bits, List.length_cons, ih]

theorem bits_xor (width a b : Nat) :
    bits width (a ^^^ b) = addFront (bits width a) (bits width b) := by
  induction width generalizing a b with
  | zero => rfl
  | succ width ih => rw [bits, bits, bits, addFront, Nat.testBit_xor, Nat.xor_div_two, ih]

/-- The highest of the bits comes last. -/
theorem bits_succ (width n : Nat) : bits (width + 1) n = bits width n ++ [n.testBit width] := by
  induction width generalizing n with
  | zero => rfl
  | succ width ih =>
    rw [bits, ih, bits, List.cons_append, Nat.testBit_div_two]

/-- Bits that are added one after the other are added together. -/
theorem addFront_addFront {ys zs : List Bool} (same : ys.length = zs.length) (xs : List Bool) :
    addFront (addFront xs ys) zs = addFront xs (addFront ys zs) := by
  induction xs generalizing ys zs with
  | nil => rfl
  | cons x xs ih =>
    cases ys with
    | nil =>
      obtain rfl : zs = [] := List.eq_nil_of_length_eq_zero same.symm
      rfl
    | cons y ys =>
      cases zs with
      | nil => cases same
      | cons z zs =>
        rw [addFront, addFront, addFront, addFront, ih (Nat.succ.inj same), Bool.xor_assoc]

/-- A zero behind what is added adds nothing. -/
theorem addFront_concat_false (xs ys : List Bool) : addFront xs (ys ++ [false]) = addFront xs ys := by
  induction xs generalizing ys with
  | nil => rfl
  | cons x xs ih =>
    cases ys with
    | nil => rw [List.nil_append, addFront, Bool.xor_false, addFront_nil, addFront_nil]
    | cons y ys => rw [List.cons_append, addFront, addFront, ih]

theorem addFront_zeros {n : Nat} {ys : List Bool} (length_eq : ys.length = n) :
    addFront (List.replicate n false) ys = ys := by
  induction ys generalizing n with
  | nil =>
    subst length_eq
    rfl
  | cons y ys ih =>
    subst length_eq
    rw [List.length_cons, List.replicate_succ, addFront, ih rfl, Bool.false_xor]

/-! ### One step of the division -/

theorem remainder_of_short {coefficients : List Bool} (short : coefficients.length ≤ 32) :
    remainder coefficients = coefficients := by
  cases coefficients with
  | nil => rw [remainder]
  | cons c rest => rw [remainder, if_pos (Nat.lt_of_succ_le short)]

theorem toNat_shift (r : UInt32) :
    (shift r).toNat
      = if r.toNat.testBit 0 then r.toNat / 2 ^^^ 0xEDB88320 else r.toNat / 2 := by
  have low : r &&& 1 = 1 ↔ r.toNat.testBit 0 = true := by
    rw [← UInt32.toNat_inj, UInt32.toNat_and, Nat.testBit_zero, decide_eq_true_iff]
    show r.toNat &&& 1 = 1 ↔ _
    rw [Nat.and_one_is_mod]
  have half : (r >>> 1).toNat = r.toNat / 2 := by
    rw [UInt32.toNat_shiftRight]
    exact Nat.shiftRight_eq_div_pow r.toNat 1
  rw [shift]
  by_cases one : r.toNat.testBit 0 = true
  · rw [if_pos one, if_pos (low.mpr one), UInt32.toNat_xor, half]
    rfl
  · rw [if_neg one, if_neg (mt low.mp one), half]

/-- The constant of `shift` is the `generator`, and a zero moves in behind the register. -/
theorem bits_shift (r : UInt32) :
    bits 32 (shift r).toNat
      = if r.toNat.testBit 0 then addFront (bits 31 (r.toNat / 2) ++ [false]) generator
        else bits 31 (r.toNat / 2) ++ [false] := by
  have r_lt := r.toNat_lt
  have half : bits 32 (r.toNat / 2) = bits 31 (r.toNat / 2) ++ [false] := by
    rw [bits_succ, Nat.testBit_lt_two_pow (by omega)]
  rw [toNat_shift]
  split
  · rw [bits_xor, half]
    rfl
  · exact half

/-- One bit that leaves the register is one step of the division: the register is added to the
highest coefficients, and what comes behind them is left as it is. -/
theorem remainder_shift (r : UInt32) (m : Bool) {rest : List Bool} (long : 32 ≤ rest.length) :
    remainder (addFront (m :: rest) (bits 32 r.toNat))
      = remainder (addFront rest (bits 32 (shift (r ^^^ m.toUInt32)).toNat)) := by
  have half : (r ^^^ m.toUInt32).toNat / 2 = r.toNat / 2 := by
    rw [UInt32.toNat_xor, Nat.xor_div_two]
    cases m with
    | false => exact Nat.xor_zero _
    | true => exact Nat.xor_zero _
  have first : (r ^^^ m.toUInt32).toNat.testBit 0 = (m ^^ r.toNat.testBit 0) := by
    rw [UInt32.toNat_xor, Nat.testBit_xor, Bool.xor_comm]
    cases m with
    | false => rfl
    | true => rfl
  rw [bits_shift, half, first, bits, addFront, remainder, length_addFront,
    if_neg (Nat.not_lt.mpr long)]
  -- the highest coefficient is that of the register and the bit, and decides on the generator
  cases m ^^ r.toNat.testBit 0 with
  | false =>
    simp only [Bool.false_eq_true, if_false]
    rw [addFront_concat_false]
  | true =>
    simp only [if_true]
    rw [← addFront_addFront (by rw [List.length_append, length_bits]; rfl), addFront_concat_false]

/-! ### Whole bytes -/

/-- Bits enter the register one after the other, and each time one is shifted out. -/
def feed (r : UInt32) : List Bool → UInt32
  | [] => r
  | m :: rest => feed (shift (r ^^^ m.toUInt32)) rest

theorem feed_append (r : UInt32) (xs ys : List Bool) :
    feed r (xs ++ ys) = feed (feed r xs) ys := by
  induction xs generalizing r with
  | nil => rfl
  | cons x xs ih => exact ih _

/-- What is left of a message is what is left in the register once all of it has entered. -/
theorem remainder_feed (r : UInt32) (message : List Bool) :
    remainder (addFront (message ++ List.replicate 32 false) (bits 32 r.toNat))
      = bits 32 (feed r message).toNat := by
  -- on the bits of the message: the register is added to the highest of those that are left
  induction message generalizing r with
  | nil =>
    rw [List.nil_append, addFront_zeros (length_bits 32 _), feed]
    exact remainder_of_short (Nat.le_of_eq (length_bits 32 _))
  | cons m message ih =>
    have long : 32 ≤ (message ++ List.replicate 32 false).length := by
      rw [List.length_append, List.length_replicate]
      exact Nat.le_add_left _ _
    rw [List.cons_append, remainder_shift r m long, ih, feed]

/-- Bits behind the lowest one may enter the register before that is shifted out. -/
theorem shift_xor (r : UInt32) {n : Nat} (fits : n < 2 ^ 32) :
    shift (r ^^^ .ofNat n) = shift (r ^^^ (n.testBit 0).toUInt32) ^^^ .ofNat (n / 2) := by
  have whole : (UInt32.ofNat n).toNat = n := UInt32.toNat_ofNat_of_lt' fits
  have half : (UInt32.ofNat (n / 2)).toNat = n / 2 :=
    UInt32.toNat_ofNat_of_lt' (Nat.lt_of_le_of_lt (Nat.div_le_self n 2) fits)
  have bit_half : (n.testBit 0).toUInt32.toNat / 2 = 0 := by cases n.testBit 0 <;> rfl
  have bit_low : (n.testBit 0).toUInt32.toNat.testBit 0 = n.testBit 0 := by
    cases n.testBit 0 <;> rfl
  rw [← UInt32.toNat_inj, UInt32.toNat_xor, toNat_shift, toNat_shift, UInt32.toNat_xor,
    UInt32.toNat_xor, whole, half, Nat.testBit_xor, Nat.testBit_xor, bit_low, Nat.xor_div_two,
    Nat.xor_div_two, bit_half, Nat.xor_zero]
  split
  · rw [Nat.xor_assoc, Nat.xor_assoc, Nat.xor_comm (n / 2)]
  · rfl

theorem feed_bits (r : UInt32) {width n : Nat} (small : width ≤ 32) (fits : n < 2 ^ width) :
    feed r (bits width n) = shift^[width] (r ^^^ .ofNat n) := by
  induction width generalizing r n with
  | zero =>
    obtain rfl : n = 0 := by omega
    exact UInt32.xor_zero.symm
  | succ width ih =>
    have n_lt : n < 2 ^ 32 := Nat.lt_of_lt_of_le fits (Nat.pow_le_pow_right (by decide) small)
    rw [bits, feed, ih _ (Nat.le_of_succ_le small) (by rw [Nat.pow_succ] at fits; omega),
      ← shift_xor r n_lt, Function.iterate_succ_apply]

theorem feed_byte (r : UInt32) (b : UInt8) : feed r (bits 8 b.toNat) = step r b := by
  have word : UInt32.ofNat b.toNat = b.toUInt32 := by
    rw [← UInt32.toNat_inj, UInt8.toNat_toUInt32]
    exact UInt32.toNat_ofNat_of_lt' (Nat.lt_trans b.toNat_lt (by decide))
  rw [feed_bits r (by decide) b.toNat_lt, word]
  rfl

theorem feed_bytes (r : UInt32) (bytes : Bytes) :
    feed r (bytes.flatMap fun b => bits 8 b.toNat) = bytes.foldl step r := by
  induction bytes generalizing r with
  | nil => rfl
  | cons b bytes ih => rw [List.flatMap_cons, feed_append, feed_byte, ih, List.foldl_cons]

theorem bits_complement (width n : Nat) (fits : n < 2 ^ width) :
    bits width (2 ^ width - 1 - n) = (bits width n).map not := by
  induction width generalizing n with
  | zero => rfl
  | succ width ih =>
    rw [Nat.pow_succ] at fits ⊢
    have half : (2 ^ width * 2 - 1 - n) / 2 = 2 ^ width - 1 - n / 2 := by omega
    have low : (2 ^ width * 2 - 1 - n).testBit 0 = !n.testBit 0 := by
      rw [Nat.testBit_zero, Nat.testBit_zero, ← decide_not, decide_eq_decide]
      omega
    rw [bits, bits, List.map_cons, half, low, ih _ (by omega)]

/-- **The checksum is the remainder of a division.**  The bits of `bytes` are moved up by 32 places and
the highest 32 of them complemented; the bits of `of bytes` are the complement of the `remainder`. -/
theorem of_eq_remainder (bytes : Bytes) :
    bits 32 (of bytes).toNat
      = (remainder (addFront ((bytes.flatMap fun b => bits 8 b.toNat) ++ List.replicate 32 false)
          (List.replicate 32 true))).map not := by
  have ones : List.replicate 32 true = bits 32 start.register.toNat := rfl
  rw [ones, remainder_feed, feed_bytes, ← bits_complement 32 _ (UInt32.toNat_lt _)]
  rw [of, value, UInt32.toNat_not]
  rfl

end SwapCapture.Crc32
