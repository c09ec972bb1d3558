/-
One's-complement sums in plain numbers.

Data is padded with a zero byte to an even length and read as words of 16 bits in network order.
`wordSum` is their exact sum, and `endAround` brings its carries back to the low end until it fits
in a word.  The result is known in closed form: it is congruent to the sum modulo 65535, and it is
zero for an empty sum only (`endAround_eq_iff`).  The checked sums of `Checksum` are these, and they
stop just where the exact sum does not fit in 32 bits:

* `sumWords?_eq_some_iff`, `sumWords?_eq_none_iff` — the accumulator, if there is one;
* `foldCarries?_eq_some_iff` — the folded complement, which there always is;
* `internet?_eq_some_iff`, `internet?_eq_none_iff` — the checksum of some data;
* `exists_udp?` — the checksum of a segment whose length fits in 16 bits.
-/
import Mathlib.Algebra.Ring.Nat
import Mathlib.Data.List.Induction
import SwapCapture.Net.Checksum

namespace SwapCapture.Checksum

open Bytes

/-! ### Exact sums -/

def words : Bytes → List Nat
  | high :: low :: rest => (256 * high.toNat + low.toNat) :: words rest
  | _ => []

/-- `data`, with a zero byte behind it if its length is odd. -/
def padded (data : Bytes) : Bytes := if data.length % 2 = 0 then data else data ++ [0]

def wordSum (data : Bytes) : Nat := (words (padded data)).sum

@[simp] theorem wordSum_nil : wordSum [] = 0 := rfl

@[simp] theorem wordSum_singleton (b : UInt8) : wordSum [b] = 256 * b.toNat := rfl

@[simp] theorem wordSum_cons_cons (high low : UInt8) (rest : Bytes) :
    wordSum (high :: low :: rest) = 256 * high.toNat + low.toNat + wordSum rest := by
  have padded_eq : padded (high :: low :: rest) = high :: low :: padded rest := by
    rw [padded, padded, List.length_cons, List.length_cons, Nat.add_assoc, Nat.add_mod_right]
    split
    · rfl
    · rfl
  rw [wordSum, padded_eq, words, List.sum_cons]
  rfl

/-- Sums of pieces add up if every piece but the last one is of even length. -/
theorem wordSum_append {front : Bytes} (even : front.length % 2 = 0) (rest : Bytes) :
    wordSum (front ++ rest) = wordSum front + wordSum rest := by
  induction front using List.twoStepInduction with
  | nil => rw [List.nil_append, wordSum_nil, Nat.zero_add]
  | singleton b => cases even
  | cons_cons high low front ih _ =>
    rw [List.length_cons, List.length_cons, Nat.add_assoc, Nat.add_mod_right] at even
    rw [List.cons_append, List.cons_append, wordSum_cons_cons, wordSum_cons_cons, ih even]
    omega

theorem wordSum_le (data : Bytes) : wordSum data ≤ 65535 * ((data.length + 1) / 2) := by
  induction data using List.twoStepInduction with
  | nil => exact Nat.le_refl 0
  | singleton b =>
    have := b.toNat_lt
    rw [wordSum_singleton, List.length_singleton]
    omega
  | cons_cons high low rest ih _ =>
    have := high.toNat_lt
    have := low.toNat_lt
    rw [wordSum_cons_cons, List.length_cons, List.length_cons]
    omega

theorem wordSum_be16 (v : UInt16) : wordSum (be16 v) = v.toNat := by
  have bound := v.toNat_lt
  rw [be16, wordSum_cons_cons, wordSum_nil]
  simp only [UInt16.toNat_toUInt8, UInt16.toNat_shiftRight, UInt16.reduceToNat, Nat.reduceMod,
    Nat.shiftRight_eq_div_pow, Nat.reducePow] at *
  omega

/-! ### End-around carries -/

/-- `n` with its carries added at the low end until it fits in 16 bits. -/
def endAround (n : Nat) : Nat :=
  if 65535 < n then endAround (n % 65536 + n / 65536) else n
termination_by n
decreasing_by omega

theorem endAround_of_le {n : Nat} (h : n ≤ 65535) : endAround n = n := by
  rw [endAround, if_neg (Nat.not_lt.mpr h)]

theorem endAround_of_lt {n : Nat} (h : 65535 < n) :
    endAround n = endAround (n % 65536 + n / 65536) := by
  rw [endAround, if_pos h]

theorem endAround_le (n : Nat) : endAround n ≤ 65535 := by
  fun_induction endAround n with
  | case1 n large ih => exact ih
  | case2 n small => exact Nat.not_lt.mp small

/-- A carry is worth `65536` where it comes from and one where it goes to. -/
theorem endAround_mod (n : Nat) : endAround n % 65535 = n % 65535 := by
  fun_induction endAround n with
  | case1 n large ih =>
    rw [ih]
    omega
  | case2 n small => rfl

theorem endAround_eq_zero_iff {n : Nat} : endAround n = 0 ↔ n = 0 := by
  fun_induction endAround n with
  | case1 n large ih =>
    rw [ih]
    omega
  | case2 n small => rfl

/-- Of the two zeros modulo `65535` only the empty sum is brought to the small one. -/
theorem endAround_eq_iff {n r : Nat} :
    endAround n = r ↔ r ≤ 65535 ∧ r % 65535 = n % 65535 ∧ (r = 0 ↔ n = 0) := by
  have le := endAround_le n
  have mod := endAround_mod n
  have zero := @endAround_eq_zero_iff n
  constructor
  · rintro rfl
    exact ⟨le, mod, zero⟩
  · rintro ⟨r_le, r_mod, r_zero⟩
    -- two words that are congruent are the same, but for 0 and 65535
    omega

/-- `n` together with the complement of its reduction is a full word. -/
theorem endAround_add_complement (n : Nat) : endAround (n + (65535 - endAround n)) = 65535 := by
  have le := endAround_le n
  have mod := endAround_mod n
  have zero := @endAround_eq_zero_iff n
  rw [endAround_eq_iff]
  omega

/-- So it is if a complement of zero is replaced by a full word. -/
theorem endAround_add_nonzero (n : Nat) {c : Nat}
    (h : c = if 65535 - endAround n = 0 then 65535 else 65535 - endAround n) :
    endAround (n + c) = 65535 := by
  have le := endAround_le n
  have mod := endAround_mod n
  split at h
  · rw [h, endAround_eq_iff]
    omega
  · rw [h]
    exact endAround_add_complement n

/-! ### The checked sums -/

theorem add?_eq_some_iff {a b sum : UInt32} :
    add? a b = some sum ↔ sum.toNat = a.toNat + b.toNat := by
  constructor
  · exact toNat_of_add?
  · intro exact_sum
    have sum_lt := sum.toNat_lt_size
    rw [exact_sum] at sum_lt
    rw [add?_of_lt sum_lt, Option.some_inj, ← UInt32.toNat_inj, UInt32.toNat_add,
      Nat.mod_eq_of_lt sum_lt, exact_sum]

theorem add?_eq_none_iff {a b : UInt32} : add? a b = none ↔ 2 ^ 32 ≤ a.toNat + b.toNat := by
  rw [add?]
  split
  · next fits => exact iff_of_false (Option.some_ne_none _) (Nat.not_le.mpr fits)
  · next large => exact iff_of_true rfl (Nat.not_lt.mp large)

/-- Sums only grow, so no intermediate is too large if the whole `wordSum` is not. -/
theorem sumWords?_eq_some_iff {acc sum : UInt32} {data : Bytes} :
    sumWords? acc data = some sum ↔ sum.toNat = acc.toNat + wordSum data := by
  fun_induction sumWords? acc data with
  | case1 acc high low rest stopped =>
    have large := add?_eq_none_iff.mp stopped
    have sum_lt := sum.toNat_lt
    rw [toNat_word] at large
    rw [wordSum_cons_cons]
    refine iff_of_false (Option.some_ne_none sum).symm ?_
    omega
  | case2 acc high low rest next added ih =>
    rw [ih, toNat_of_add? added, toNat_word, wordSum_cons_cons, Nat.add_assoc]
  | case3 acc high => rw [add?_eq_some_iff, toNat_lastWord, wordSum_singleton]
  | case4 acc => rw [Option.some_inj, ← UInt32.toNat_inj, wordSum_nil, Nat.add_zero, eq_comm]

theorem exists_sumWords? {acc : UInt32} {data : Bytes}
    (fits : acc.toNat + wordSum data < 2 ^ 32) :
    ∃ sum, sumWords? acc data = some sum ∧ sum.toNat = acc.toNat + wordSum data := by
  have value : (UInt32.ofNat (acc.toNat + wordSum data)).toNat = acc.toNat + wordSum data :=
    UInt32.toNat_ofNat_of_lt' fits
  exact ⟨_, sumWords?_eq_some_iff.mpr value, value⟩

theorem sumWords?_eq_none_iff {acc : UInt32} {data : Bytes} :
    sumWords? acc data = none ↔ 2 ^ 32 ≤ acc.toNat + wordSum data := by
  constructor
  · intro stopped
    by_contra small
    obtain ⟨sum, summed, -⟩ := exists_sumWords? (Nat.not_le.mp small)
    rw [stopped] at summed
    cases summed
  · intro large
    rw [Option.eq_none_iff_forall_ne_some]
    intro sum summed
    have sum_lt := sum.toNat_lt
    rw [sumWords?_eq_some_iff.mp summed] at sum_lt
    omega

theorem zero_add_wordSum (data : Bytes) : (0 : UInt32).toNat + wordSum data = wordSum data :=
  Nat.zero_add _

/-- A sum goes on behind `front` of even length as if both were one piece. -/
theorem sumWords?_append {front : Bytes} (even : front.length % 2 = 0) (acc : UInt32)
    (rest : Bytes) :
    sumWords? acc (front ++ rest) = (sumWords? acc front).bind (sumWords? · rest) := by
  apply Option.ext
  intro sum
  rw [sumWords?_eq_some_iff, wordSum_append even, Option.bind_eq_some_iff]
  constructor
  · intro exact_sum
    have sum_lt := sum.toNat_lt
    -- a front adds up to no more than the whole, so it does not stop before
    have front_fits : acc.toNat + wordSum front < 2 ^ 32 := by omega
    obtain ⟨next, front_eq, next_eq⟩ := exists_sumWords? front_fits
    refine ⟨next, front_eq, sumWords?_eq_some_iff.mpr ?_⟩
    rw [exact_sum, next_eq, Nat.add_assoc]
  · rintro ⟨next, front_eq, rest_eq⟩
    rw [sumWords?_eq_some_iff.mp rest_eq, sumWords?_eq_some_iff.mp front_eq, Nat.add_assoc]

/-- Folding gives the complement of `endAround`, whatever the accumulator. -/
theorem exists_foldCarries? (acc : UInt32) :
    ∃ folded, foldCarries? acc = some folded ∧ folded.toNat = 65535 - endAround acc.toNat := by
  fun_induction foldCarries? acc with
  | case1 acc large stopped =>
    obtain ⟨next, passed⟩ := exists_pass? acc
    rw [passed] at stopped
    cases stopped
  -- a pass is a step of the reduction
  | case2 acc large next passed ih =>
    have large : 65535 < acc.toNat := UInt32.lt_iff_toNat_lt.mp large
    rwa [endAround_of_lt large, ← toNat_of_pass? passed]
  | case3 acc small =>
    have small : acc.toNat ≤ 65535 := by
      rw [gt_iff_lt, UInt32.lt_iff_toNat_lt] at small
      exact Nat.not_lt.mp small
    refine ⟨_, rfl, ?_⟩
    rw [endAround_of_le small, UInt16.toNat_not, UInt32.toNat_toUInt16,
      Nat.mod_eq_of_lt (Nat.lt_succ_of_le small)]
    rfl

theorem foldCarries?_eq_some_iff {acc : UInt32} {folded : UInt16} :
    foldCarries? acc = some folded ↔ folded.toNat = 65535 - endAround acc.toNat := by
  obtain ⟨value, value_eq, exact_value⟩ := exists_foldCarries? acc
  rw [value_eq, ← exact_value, Option.some_inj, UInt16.toNat_inj, eq_comm]

/-- `internet? data` is there just if the exact `wordSum` fits in 32 bits. -/
theorem internet?_eq_some_iff {data : Bytes} {sum : UInt16} :
    internet? data = some sum ↔
      wordSum data < 2 ^ 32 ∧ sum.toNat = 65535 - endAround (wordSum data) := by
  rw [internet?, Option.bind_eq_bind, Option.bind_eq_some_iff]
  constructor
  · rintro ⟨acc, summed, folded⟩
    have acc_lt := acc.toNat_lt
    rw [sumWords?_eq_some_iff, zero_add_wordSum] at summed
    rw [foldCarries?_eq_some_iff, summed] at folded
    rw [summed] at acc_lt
    exact ⟨acc_lt, folded⟩
  · rintro ⟨fits, value⟩
    rw [← zero_add_wordSum] at fits
    obtain ⟨acc, summed, acc_eq⟩ := exists_sumWords? fits
    refine ⟨acc, summed, foldCarries?_eq_some_iff.mpr ?_⟩
    rw [value, acc_eq, zero_add_wordSum]

theorem exists_internet? {data : Bytes} (fits : wordSum data < 2 ^ 32) :
    ∃ sum, internet? data = some sum ∧ sum.toNat = 65535 - endAround (wordSum data) := by
  have value : (UInt16.ofNat (65535 - endAround (wordSum data))).toNat
      = 65535 - endAround (wordSum data) :=
    UInt16.toNat_ofNat_of_lt' (Nat.lt_succ_of_le (Nat.sub_le _ _))
  exact ⟨_, internet?_eq_some_iff.mpr ⟨fits, value⟩, value⟩

/-- Folding never stops, so `internet?` stops where its sum does. -/
theorem internet?_eq_none_iff {data : Bytes} :
    internet? data = none ↔ 2 ^ 32 ≤ wordSum data := by
  rw [← zero_add_wordSum, ← sumWords?_eq_none_iff, internet?, Option.bind_eq_bind,
    Option.bind_eq_none_iff]
  constructor
  · intro stopped
    rw [Option.eq_none_iff_forall_ne_some]
    intro sum summed
    obtain ⟨folded, folded_eq, -⟩ := exists_foldCarries? sum
    rw [stopped sum summed] at folded_eq
    cases folded_eq
  · intro stopped sum summed
    rw [stopped] at summed
    cases summed

/-! ### Segments -/

/-- What a UDP checksum sums up: the pseudo-header and `segment`. -/
def covered (source destination : Ipv4Address) (segment : Bytes) : Bytes :=
  pseudoHeader source destination segment.length ++ segment

theorem wordSum_covered (source destination : Ipv4Address) (segment : Bytes) :
    wordSum (covered source destination segment)
      = wordSum (pseudoHeader source destination segment.length) + wordSum segment :=
  wordSum_append (by rw [length_pseudoHeader]) segment

theorem wordSum_covered_lt (source destination : Ipv4Address) {segment : Bytes}
    (short : segment.length ≤ 65535) :
    wordSum (covered source destination segment) < 2 ^ 32 := by
  have le := wordSum_le (covered source destination segment)
  rw [covered, List.length_append, length_pseudoHeader] at le
  rw [covered]
  omega

/-- The pseudo-header is summed first and `segment` on top of it, which is the same as to sum both
in one piece. -/
theorem sumWords?_covered (source destination : Ipv4Address) (segment : Bytes) :
    sumWords? 0 (covered source destination segment)
      = (sumWords? 0 (pseudoHeader source destination segment.length)).bind
        (sumWords? · segment) :=
  sumWords?_append (by rw [length_pseudoHeader]) 0 segment

/-- The complement of the sum, or a full word where that would be zero. -/
theorem exists_udp? (source destination : Ipv4Address) {segment : Bytes}
    (short : segment.length ≤ 65535) :
    ∃ checksum, udp? source destination segment = some checksum ∧
      checksum.toNat
        = if 65535 - endAround (wordSum (covered source destination segment)) = 0 then 65535
          else 65535 - endAround (wordSum (covered source destination segment)) := by
  have fits : (0 : UInt32).toNat + wordSum (covered source destination segment) < 2 ^ 32 := by
    rw [zero_add_wordSum]
    exact wordSum_covered_lt source destination short
  obtain ⟨sum, summed, sum_eq⟩ := exists_sumWords? fits
  obtain ⟨folded, folded_eq, value⟩ := exists_foldCarries? sum
  rw [sum_eq, zero_add_wordSum] at value
  -- the program sums the pseudo-header first and goes on behind it
  rw [sumWords?_covered, Option.bind_eq_some_iff] at summed
  obtain ⟨front, front_eq, rest_eq⟩ := summed
  refine ⟨if folded = 0 then 0xFFFF else folded, ?_, ?_⟩
  · simp only [udp?, front_eq, rest_eq, folded_eq, Option.bind_eq_bind, Option.bind_some]
    rfl
  · rw [← value]
    simp only [← UInt16.toNat_inj (b := 0), show (0 : UInt16).toNat = 0 from rfl]
    split
    · rfl
    · rfl

theorem toNat_of_udp? {source destination : Ipv4Address} {segment : Bytes} {checksum : UInt16}
    (short : segment.length ≤ 65535) (h : udp? source destination segment = some checksum) :
    checksum.toNat
      = if 65535 - endAround (wordSum (covered source destination segment)) = 0 then 65535
        else 65535 - endAround (wordSum (covered source destination segment)) := by
  obtain ⟨found, found_eq, value⟩ := exists_udp? source destination short
  obtain rfl : found = checksum := Option.some_inj.mp (found_eq.symm.trans h)
  exact value

end SwapCapture.Checksum
