/-
The checksums as the protocols define them.

RFC 1071 takes the complement of the exact sum of the words of some data, its carries added at the
low end.  RFC 768 takes that of a pseudo-header and a segment, and sends a full word where it would
be zero.  The sums of `Checksum` are kept in 32 bits and never folded on the way, so they agree with
these definitions as far as 32 bits go, and stop beyond:

* `Reference.internet`, `Reference.udp` — the two checksums in exact arithmetic;
* `udp_eq_reference` — a segment is never too long for its checksum to be right;
* `internet_eq_reference_iff` — which data have a checksum that is right, and up to which length all
  data have one;
* `internet_stops` — data of the first length at which some have none.
-/
import SwapCapture.Proofs.Net.Verification

namespace SwapCapture.Checksum

open Bytes

namespace Reference

/-- The complement of the exact `wordSum`, reduced with end-around carries. -/
def internet (data : Bytes) : Nat := 65535 - endAround (wordSum data)

/-- What a UDP checksum is taken of: both addresses, a zero, the number of the protocol, the length
of `segment` and `segment` itself. -/
def covered (source destination : Ipv4Address) (segment : Bytes) : Bytes :=
  [source.a, source.b, source.c, source.d,
    destination.a, destination.b, destination.c, destination.d,
    0, 17, .ofNat (segment.length / 256), .ofNat (segment.length % 256)] ++ segment

/-- The checksum of a UDP segment.  Zero would say that there is none. -/
def udp (source destination : Ipv4Address) (segment : Bytes) : Nat :=
  if internet (covered source destination segment) = 0 then 65535
  else internet (covered source destination segment)

end Reference

/-! ### Segments -/

section Segments

variable (source destination : Ipv4Address) {segment : Bytes}

/-- A length of 16 bits is written as its quotient and its remainder by `256`. -/
theorem be16_ofNat {length : Nat} (short : length ≤ 65535) :
    be16 (.ofNat length) = [.ofNat (length / 256), .ofNat (length % 256)] := by
  have high : (UInt16.ofNat length >>> 8).toUInt8 = .ofNat (length / 256) := by
    apply UInt8.toNat_inj.mp
    simp only [UInt16.toNat_toUInt8, UInt16.toNat_shiftRight, UInt16.toNat_ofNat',
      UInt8.toNat_ofNat', UInt16.reduceToNat, Nat.shiftRight_eq_div_pow, Nat.reduceMod,
      Nat.reducePow]
    omega
  have low : (UInt16.ofNat length).toUInt8 = .ofNat (length % 256) := by
    apply UInt8.toNat_inj.mp
    simp only [UInt16.toNat_toUInt8, UInt16.toNat_ofNat', UInt8.toNat_ofNat']
    omega
  rw [be16, high, low]

/-- What `udp?` sums up is what `Reference.udp` is taken of. -/
theorem covered_eq_reference (short : segment.length ≤ 65535) :
    covered source destination segment = Reference.covered source destination segment := by
  rw [covered, pseudoHeader, be16_ofNat short]
  rfl

/-- **The UDP checksum of RFC 768.**  For every segment whose length fits in 16 bits no addition of
`udp?` stops, and the checksum is that of `Reference.udp` and not zero.  The accumulator holds the
exact `wordSum`, which is the same whether the pseudo-header and the segment are summed one after the
other or as one piece.  The sum and the checksum together make a positive multiple of a full word. -/
theorem udp_eq_reference (short : segment.length ≤ 65535) :
    ∃ (front sum : UInt32) (checksum : UInt16),
      sumWords? 0 (pseudoHeader source destination segment.length) = some front ∧
      sumWords? front segment = some sum ∧
      sumWords? 0 (pseudoHeader source destination segment.length ++ segment) = some sum ∧
      sum.toNat = wordSum (Reference.covered source destination segment) ∧
      udp? source destination segment = some checksum ∧
      checksum.toNat = Reference.udp source destination segment ∧ checksum ≠ 0 ∧
      0 < wordSum (Reference.covered source destination segment) + checksum.toNat ∧
      65535 ∣ wordSum (Reference.covered source destination segment) + checksum.toNat := by
  have same : covered source destination segment = Reference.covered source destination segment :=
    covered_eq_reference source destination short
  have fits : (0 : UInt32).toNat + wordSum (covered source destination segment) < 2 ^ 32 := by
    rw [zero_add_wordSum]
    exact wordSum_covered_lt source destination short
  obtain ⟨sum, joined, sum_eq⟩ := exists_sumWords? fits
  have apart := joined
  rw [sumWords?_covered, Option.bind_eq_some_iff] at apart
  obtain ⟨front, front_eq, rest_eq⟩ := apart
  obtain ⟨checksum, checksum_eq, value⟩ := exists_udp? source destination short
  have reference : checksum.toNat = Reference.udp source destination segment := by
    rw [value, same]
    rfl
  refine ⟨front, sum, checksum, front_eq, rest_eq, joined, ?_, checksum_eq, reference, ?_, ?_⟩
  · rw [sum_eq, zero_add_wordSum, same]
  · intro zero
    rw [zero] at checksum_eq
    exact Frame.udp?_ne_zero source destination short checksum_eq
  · generalize wordSum_eq : wordSum (Reference.covered source destination segment) = exact_sum
    have le := endAround_le exact_sum
    have mod := endAround_mod exact_sum
    rw [reference, Reference.udp, Reference.internet, wordSum_eq]
    -- whether the reduced sum is a full word or not, the checksum makes up the rest of one
    split
    · omega
    · omega

/-- Three bytes whose sum with the pseudo-header is three full words, so that the complement is
zero. -/
theorem udp_eq_reference_fullWord :
    ([0xF3, 0x96, 0x01] : Bytes).length ≤ 65535 ∧
      udp? ⟨192, 168, 69, 1⟩ ⟨192, 168, 69, 2⟩ [0xF3, 0x96, 0x01] = some 0xFFFF := by
  have short : ([0xF3, 0x96, 0x01] : Bytes).length ≤ 65535 := by decide
  obtain ⟨-, -, checksum, -, -, -, -, checksum_eq, value, -⟩ :=
    udp_eq_reference ⟨192, 168, 69, 1⟩ ⟨192, 168, 69, 2⟩ short
  have reduced : Reference.internet
      (Reference.covered ⟨192, 168, 69, 1⟩ ⟨192, 168, 69, 2⟩ [0xF3, 0x96, 0x01]) = 0 := by
    have full : endAround (wordSum
        (Reference.covered ⟨192, 168, 69, 1⟩ ⟨192, 168, 69, 2⟩ [0xF3, 0x96, 0x01])) = 65535 :=
      endAround_eq_iff.mpr (by decide)
    rw [Reference.internet, full]
  rw [Reference.udp, if_pos reduced] at value
  obtain rfl : checksum = 0xFFFF := UInt16.toNat_inj.mp value
  exact ⟨short, checksum_eq⟩

end Segments

/-! ### Data of any length -/

theorem toNat_ofNat_reference (data : Bytes) :
    (UInt16.ofNat (Reference.internet data)).toNat = Reference.internet data :=
  UInt16.toNat_ofNat_of_lt' (Nat.lt_succ_of_le (Nat.sub_le _ _))

/-- Where `internet?` gives a checksum it is the right one. -/
theorem internet?_eq_reference_iff_wordSum (data : Bytes) :
    internet? data = some (.ofNat (Reference.internet data)) ↔ wordSum data < 2 ^ 32 := by
  rw [internet?_eq_some_iff, toNat_ofNat_reference]
  exact and_iff_left rfl

theorem wordSum_replicate_full (n : Nat) :
    wordSum (List.replicate (2 * n) 0xFF) = 65535 * n := by
  induction n with
  | zero => rfl
  | succ n ih =>
    rw [show 2 * (n + 1) = 2 * n + 1 + 1 by omega, List.replicate_succ, List.replicate_succ,
      wordSum_cons_cons, ih]
    show 256 * 255 + 255 + 65535 * n = 65535 * (n + 1)
    omega

theorem wordSum_cons_zeros (b : UInt8) (n : Nat) :
    wordSum (b :: List.replicate n 0) = 256 * b.toNat := by
  induction n using Nat.twoStepInduction generalizing b with
  | zero => rfl
  | one =>
    show wordSum [b, 0] = 256 * b.toNat
    rw [wordSum_cons_cons, wordSum_nil]
    rfl
  | more n ih _ =>
    rw [List.replicate_succ, List.replicate_succ, wordSum_cons_cons, ih 0]
    rfl

/-- Just enough full bytes for `wordSum` not to fit in 32 bits, and zeros behind them. -/
def tooMuch (zeros : Nat) : Bytes :=
  List.replicate (2 * 65537) 0xFF ++ 0xFF :: List.replicate zeros 0

theorem wordSum_tooMuch (zeros : Nat) : wordSum (tooMuch zeros) = 2 ^ 32 + 65279 := by
  have even : (List.replicate (2 * 65537) (0xFF : UInt8)).length % 2 = 0 := by
    rw [List.length_replicate]
  rw [tooMuch, wordSum_append even, wordSum_replicate_full, wordSum_cons_zeros]
  rfl

theorem length_tooMuch (zeros : Nat) : (tooMuch zeros).length = 131075 + zeros := by
  rw [tooMuch, List.length_append, List.length_cons, List.length_replicate,
    List.length_replicate]
  omega

/-- **How far the 32 bits of the accumulator go.**  The checksum of `data` is that of
`Reference.internet` just if the exact `wordSum` fits in 32 bits.  If it does not, the addition that
would go beyond them stops, and there is none.  All data of the same length have the defined checksum
just if this length is at most 131074. -/
theorem internet_eq_reference_iff (data : Bytes) :
    (internet? data = some (.ofNat (Reference.internet data)) ↔ wordSum data < 2 ^ 32) ∧
      (internet? data = none ↔ 2 ^ 32 ≤ wordSum data) ∧
      ((∀ other : Bytes, other.length = data.length →
        internet? other = some (.ofNat (Reference.internet other))) ↔ data.length ≤ 131074) := by
  refine ⟨internet?_eq_reference_iff_wordSum data, internet?_eq_none_iff, ?_⟩
  constructor
  · intro all
    by_contra long
    have right := all (tooMuch (data.length - 131075)) (by rw [length_tooMuch]; omega)
    rw [internet?_eq_reference_iff_wordSum, wordSum_tooMuch] at right
    omega
  · intro short other length_eq
    -- each byte adds less than half a word to the sum
    have le := wordSum_le other
    rw [internet?_eq_reference_iff_wordSum]
    omega

/-- The longest data that are all summed: the accumulator is full, and so is the reduced sum. -/
theorem internet_eq_reference_longest : internet? (List.replicate 131074 0xFF) = some 0 := by
  have longest : (List.replicate 131074 (0xFF : UInt8)).length ≤ 131074 := by
    rw [List.length_replicate]
  obtain ⟨-, -, all_iff⟩ := internet_eq_reference_iff (List.replicate 131074 0xFF)
  have right := all_iff.mpr longest _ rfl
  have sum : wordSum (List.replicate 131074 0xFF) = 4294967295 :=
    wordSum_replicate_full 65537
  have full : endAround 4294967295 = 65535 := endAround_eq_iff.mpr (by decide)
  rw [Reference.internet, sum, full] at right
  exact right

/-- One byte more, and `internet?` stops, although a checksum of these data is defined. -/
theorem internet_stops :
    Reference.internet (List.replicate 131075 0xFF) = 255 ∧
      internet? (List.replicate 131075 0xFF) = none := by
  have same : List.replicate 131075 (0xFF : UInt8) = tooMuch 0 :=
    (List.replicate_append_replicate (n := 2 * 65537) (m := 1)).symm
  have whole : endAround (2 ^ 32 + 65279) = 65280 := endAround_eq_iff.mpr (by decide)
  rw [same, Reference.internet, internet?_eq_none_iff, wordSum_tooMuch, whole]
  exact ⟨rfl, Nat.le_add_right _ _⟩

end SwapCapture.Checksum
