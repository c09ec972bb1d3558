/-
How the carries of a sum are folded.

The loop of `Checksum.foldCarries?` adds the high half of the accumulator to its low half as long as
there is a high half.  What comes out of it is known without the loop: the accumulator modulo 65535,
where zero is written as a full word unless the accumulator was zero.  It follows that neither the
order of the words of a sum matters nor how the sum is cut into pieces:

* `pass`, `pass?_eq` — one pass of the loop, whose addition is never too large;
* `pass_lt`, `exists_passes` — a pass makes the accumulator smaller, and two are enough;
* `IsResidue`, `isResidue_iff` — what is left of an accumulator, and that it is the only such number;
* `wordSum_eq_of_perm`, `foldlM_sumWords?` — sums of the same words in another order, and in pieces;
* `foldCarries_canonical` — all of this about one accumulator.
-/
import Mathlib.Data.Nat.ModEq
import Mathlib.Logic.Function.Iterate
import SwapCapture.Proofs.Net.OnesComplement

namespace SwapCapture.Checksum

open Bytes

/-! ### The loop -/

/-- One pass of the loop: the high half of `acc`, added to its low half. -/
def pass (acc : UInt32) : UInt32 := (acc &&& (0xFFFF : UInt32)) + acc >>> 16

theorem toNat_pass (acc : UInt32) :
    (pass acc).toNat = acc.toNat % 65536 + acc.toNat / 65536 := by
  have acc_lt : acc.toNat < 2 ^ 32 := acc.toNat_lt
  have low : (acc &&& (0xFFFF : UInt32)).toNat = acc.toNat % 65536 := by
    rw [UInt32.toNat_and]
    exact Nat.and_two_pow_sub_one_eq_mod acc.toNat 16
  have high : (acc >>> 16).toNat = acc.toNat / 65536 := by
    simp [UInt32.toNat_shiftRight, Nat.shiftRight_eq_div_pow]
  rw [pass, UInt32.toNat_add, low, high]
  omega

theorem pass?_eq (acc : UInt32) : pass? acc = some (pass acc) := by
  obtain ⟨next, passed⟩ := exists_pass? acc
  rw [passed, Option.some_inj, ← UInt32.toNat_inj, toNat_of_pass? passed, toNat_pass]

theorem lt_toNat_iff {acc : UInt32} : 0xFFFF < acc ↔ 65535 < acc.toNat := UInt32.lt_iff_toNat_lt

/-- A carry is worth less at the low end than where it comes from, so a `pass` makes `acc` smaller.
-/
theorem pass_lt {acc : UInt32} (large : 0xFFFF < acc) : pass acc < acc := by
  rw [lt_toNat_iff] at large
  rw [UInt32.lt_iff_toNat_lt, toNat_pass]
  omega

theorem foldCarries?_of_lt {acc : UInt32} (large : 0xFFFF < acc) :
    foldCarries? acc = foldCarries? (pass acc) := by
  rw [foldCarries?, if_pos large]
  split
  · next stopped => rw [pass?_eq] at stopped; cases stopped
  · next passed =>
    rw [pass?_eq] at passed
    cases passed
    rfl

theorem foldCarries?_of_le {acc : UInt32} (small : acc ≤ 0xFFFF) :
    foldCarries? acc = some (~~~acc.toUInt16) := by
  have not_large : ¬acc > 0xFFFF := by
    rw [gt_iff_lt, UInt32.not_lt]
    exact small
  rw [foldCarries?, if_neg not_large]

/-- The first `pass` leaves a carry of at most one, and the second adds it to a low half that has
room for it. -/
theorem exists_passes (acc : UInt32) :
    ∃ k ≤ 2, (∀ j < k, 0xFFFF < pass^[j] acc) ∧ pass^[k] acc ≤ 0xFFFF ∧
      foldCarries? acc = some (~~~(pass^[k] acc).toUInt16) := by
  by_cases none_needed : acc ≤ 0xFFFF
  · refine ⟨0, by omega, ?_, none_needed, foldCarries?_of_le none_needed⟩
    intro j before
    exact absurd before (Nat.not_lt_zero j)
  have large : 0xFFFF < acc := UInt32.not_le.mp none_needed
  by_cases one_needed : pass acc ≤ 0xFFFF
  · refine ⟨1, by omega, ?_, one_needed, ?_⟩
    · intro j before
      obtain rfl : j = 0 := by omega
      exact large
    · rw [foldCarries?_of_lt large, foldCarries?_of_le one_needed]
      rfl
  have still_large : 0xFFFF < pass acc := UInt32.not_le.mp one_needed
  -- after a pass the high half is one at most, and the low half then has room for it
  have two_needed : pass (pass acc) ≤ 0xFFFF := by
    have acc_lt : acc.toNat < 2 ^ 32 := acc.toNat_lt
    rw [lt_toNat_iff, toNat_pass] at still_large
    rw [UInt32.le_iff_toNat_le, toNat_pass, toNat_pass]
    show _ ≤ 65535
    omega
  refine ⟨2, by omega, ?_, two_needed, ?_⟩
  · intro j before
    rcases j with _ | _ | j
    · exact large
    · exact still_large
    · omega
  · rw [foldCarries?_of_lt large, foldCarries?_of_lt still_large, foldCarries?_of_le two_needed]
    rfl

/-! ### What is left of an accumulator -/

/-- `r` is a word that is congruent to the accumulator modulo 65535, and zero just if the
accumulator is. -/
def IsResidue (acc : UInt32) (r : Nat) : Prop :=
  r ≤ 0xFFFF ∧ r ≡ acc.toNat [MOD 65535] ∧ (r = 0 ↔ acc = 0)

theorem isResidue_iff {acc : UInt32} {r : Nat} : IsResidue acc r ↔ r = endAround acc.toNat := by
  have zero_iff : acc = 0 ↔ acc.toNat = 0 := UInt32.toNat_inj.symm
  rw [eq_comm, endAround_eq_iff, IsResidue, zero_iff]
  rfl

theorem existsUnique_isResidue (acc : UInt32) : ∃! r, IsResidue acc r := by
  refine ⟨endAround acc.toNat, isResidue_iff.mpr rfl, ?_⟩
  intro r residue
  exact isResidue_iff.mp residue

theorem IsResidue.exists_foldCarries? {acc : UInt32} {r : Nat} (h : IsResidue acc r) :
    ∃ folded, foldCarries? acc = some folded ∧ folded.toNat = 0xFFFF - r := by
  rw [isResidue_iff.mp h]
  exact Checksum.exists_foldCarries? acc

/-- Two accumulators have the same complement just if they are congruent and both or neither of them
are zero, whether or not they have carries to fold. -/
theorem foldCarries?_eq_iff {acc other : UInt32} :
    foldCarries? acc = foldCarries? other ↔
      acc.toNat ≡ other.toNat [MOD 65535] ∧ (acc = 0 ↔ other = 0) := by
  obtain ⟨r, residue, -⟩ := existsUnique_isResidue acc
  obtain ⟨s, residue', -⟩ := existsUnique_isResidue other
  obtain ⟨folded, folded_eq, value⟩ := residue.exists_foldCarries?
  obtain ⟨folded', folded_eq', value'⟩ := residue'.exists_foldCarries?
  rw [folded_eq, folded_eq', Option.some_inj, ← UInt16.toNat_inj, value, value']
  obtain ⟨r_le, r_mod, r_zero⟩ := residue
  obtain ⟨s_le, s_mod, s_zero⟩ := residue'
  rw [← r_zero, ← s_zero]
  unfold Nat.ModEq at *
  omega

/-! ### Sums in another order and in pieces -/

theorem wordSum_of_even {data : Bytes} (even : data.length % 2 = 0) :
    wordSum data = (words data).sum := by
  rw [wordSum, padded, if_pos even]

theorem wordSum_eq_of_perm {data permuted : Bytes} (even : data.length % 2 = 0)
    (even' : permuted.length % 2 = 0) (h : (words permuted).Perm (words data)) :
    wordSum permuted = wordSum data := by
  rw [wordSum_of_even even, wordSum_of_even even', h.sum_nat]

/-- `sumWords?` of the same words in another order is the same, and stops just if the other one
does. -/
theorem sumWords?_of_perm {data permuted : Bytes} (acc : UInt32) (even : data.length % 2 = 0)
    (even' : permuted.length % 2 = 0) (h : (words permuted).Perm (words data)) :
    sumWords? acc permuted = sumWords? acc data := by
  apply Option.ext
  intro sum
  rw [sumWords?_eq_some_iff, sumWords?_eq_some_iff, wordSum_eq_of_perm even even' h]

/-- `sumWords?` in pieces of even length is that of the whole, and stops just if that does. -/
theorem foldlM_sumWords? {pieces : List Bytes} (even : ∀ piece ∈ pieces, piece.length % 2 = 0)
    (acc : UInt32) : pieces.foldlM sumWords? acc = sumWords? acc pieces.flatten := by
  induction pieces generalizing acc with
  | nil => rfl
  | cons piece pieces ih =>
    have first := even piece List.mem_cons_self
    have others := ih fun p mem => even p (List.mem_cons_of_mem piece mem)
    rw [List.foldlM_cons, List.flatten_cons, sumWords?_append first]
    exact Option.bind_congr fun next _ => others next

/-! ### One accumulator -/

/-- **Folding ends and is canonical.**  As long as `acc` has a carry, a `pass` makes it smaller, and
`foldCarries?` does so at most twice; no addition on the way is too large for 32 bits.  The result
is the complement of the only `IsResidue` of `acc`, the word that is congruent to it modulo 65535 and
zero just if `acc` is, which is a full word for a positive multiple of 65535.  So accumulators other
than zero have the same result just if they are congruent.  `data` of even length whose `wordSum`
fits in 32 bits may have its words in any order, and be summed in any pieces of even length. -/
theorem foldCarries_canonical (acc : UInt32) :
    (0xFFFF < acc → pass? acc = some (pass acc) ∧ pass acc < acc ∧
      (pass acc).toNat = acc.toNat % 65536 + acc.toNat / 65536) ∧
    (∃ k ≤ 2, (∀ j < k, 0xFFFF < pass^[j] acc) ∧ pass^[k] acc ≤ 0xFFFF ∧
      foldCarries? acc = some (~~~(pass^[k] acc).toUInt16)) ∧
    (∃! r, IsResidue acc r) ∧
    (∀ r, IsResidue acc r →
      ∃ folded, foldCarries? acc = some folded ∧ folded.toNat = 0xFFFF - r) ∧
    (acc ≠ 0 → 65535 ∣ acc.toNat → IsResidue acc 0xFFFF) ∧
    (∀ other, acc ≠ 0 → other ≠ 0 →
      (foldCarries? acc = foldCarries? other ↔ acc.toNat ≡ other.toNat [MOD 65535])) ∧
    ∀ data : Bytes, data.length % 2 = 0 → acc.toNat + wordSum data < 2 ^ 32 →
      ∃ sum, sumWords? acc data = some sum ∧ sum.toNat = acc.toNat + wordSum data ∧
        (∀ permuted : Bytes, permuted.length % 2 = 0 → (words permuted).Perm (words data) →
          sumWords? acc permuted = some sum ∧
            (sumWords? acc permuted).bind foldCarries? = foldCarries? sum) ∧
        ∀ pieces : List Bytes, pieces.flatten = data → (∀ piece ∈ pieces, piece.length % 2 = 0) →
          pieces.foldlM sumWords? acc = some sum ∧
            (pieces.foldlM sumWords? acc).bind foldCarries? = foldCarries? sum := by
  refine ⟨?_, exists_passes acc, existsUnique_isResidue acc, ?_, ?_, ?_, ?_⟩
  · intro large
    exact ⟨pass?_eq acc, pass_lt large, toNat_pass acc⟩
  · intro r residue
    exact residue.exists_foldCarries?
  · intro nonzero multiple
    refine ⟨Nat.le_refl _, ?_, by simp [nonzero]⟩
    exact (Nat.modEq_zero_iff_dvd.mpr multiple).symm
  · intro other nonzero nonzero'
    rw [foldCarries?_eq_iff]
    simp [nonzero, nonzero']
  -- one sum that fits is the sum of the same words in any order and in any pieces
  · intro data even fits
    obtain ⟨sum, summed, sum_eq⟩ := exists_sumWords? fits
    refine ⟨sum, summed, sum_eq, ?_, ?_⟩
    · intro permuted even' perm
      have same : sumWords? acc permuted = some sum :=
        (sumWords?_of_perm acc even even' perm).trans summed
      rw [same, Option.bind_some]
      exact ⟨rfl, rfl⟩
    · rintro pieces rfl even_pieces
      have same : pieces.foldlM sumWords? acc = some sum :=
        (foldlM_sumWords? even_pieces acc).trans summed
      rw [same, Option.bind_some]
      exact ⟨rfl, rfl⟩

/-- The largest accumulator takes both passes and is a multiple of 65535.  Two words whose sum has a
carry may be exchanged, and be summed one by one. -/
theorem foldCarries_canonical_largest :
    (0xFFFF : UInt32) < pass 0xFFFFFFFF ∧ 65535 ∣ (0xFFFFFFFF : UInt32).toNat ∧
      foldCarries? 0xFFFFFFFF = some 0 ∧
      ∃ sum, sum.toNat = 65537 ∧
        sumWords? 0 [0xFF, 0xFE, 0x00, 0x03] = some sum ∧
        sumWords? 0 [0x00, 0x03, 0xFF, 0xFE] = some sum ∧
        [[0xFF, 0xFE], [0x00, 0x03]].foldlM sumWords? 0 = some sum := by
  have multiple : 65535 ∣ (0xFFFFFFFF : UInt32).toNat := by decide
  obtain ⟨-, -, -, residue, full, -, -⟩ := foldCarries_canonical 0xFFFFFFFF
  obtain ⟨folded, folded_eq, value⟩ := residue 0xFFFF (full (by decide) multiple)
  obtain rfl : folded = 0 := UInt16.toNat_inj.mp value
  obtain ⟨-, -, -, -, -, -, sums⟩ := foldCarries_canonical 0
  have exact_sum : wordSum [0xFF, 0xFE, 0x00, 0x03] = 65537 := rfl
  obtain ⟨sum, summed, sum_eq, in_any_order, in_pieces⟩ :=
    sums [0xFF, 0xFE, 0x00, 0x03] rfl (by rw [exact_sum]; decide)
  have exchanged : (words [0x00, 0x03, 0xFF, 0xFE]).Perm (words [0xFF, 0xFE, 0x00, 0x03]) :=
    .swap 65534 3 []
  refine ⟨by decide, multiple, folded_eq, sum, sum_eq, summed, ?_, ?_⟩
  · exact (in_any_order _ rfl exchanged).1
  · refine (in_pieces [[0xFF, 0xFE], [0x00, 0x03]] rfl ?_).1
    simp

end SwapCapture.Checksum
