/-
The synthetic clock over all indexes.

`Timestamp.nth` counts milliseconds from the start of a second in plain numbers.  As long as an
index lies below `Timestamp.room` the machine clock `Timestamp.at?` agrees with it, and from there
on it gives nothing:

* `at?_of_lt_room`, `at?_of_room_le` — the clock and its end;
* `nth_zero` — the first frame is at the start of the base second;
* `micros_nth` — in microseconds the clock is linear;
* `before_nth_eq_false` — a later frame never lies before an earlier one.
-/
import Mathlib.Algebra.Ring.Nat
import SwapCapture.Pcap.Time

namespace SwapCapture.Timestamp

/-- The time `index` milliseconds after the start of second `base`. -/
def nth (base : UInt32) (index : Nat) : Timestamp :=
  ⟨.ofNat (base.toNat + index / 1000), .ofNat (index % 1000 * 1000)⟩

/-- The number of frames that can be stamped before the seconds run out. -/
def room (base : UInt32) : Nat := (2 ^ 32 - base.toNat) * 1000

theorem room_lt (base : UInt32) : room base < 2 ^ 64 := by
  unfold room
  omega

theorem nth_zero (base : UInt32) : nth base 0 = ⟨base, 0⟩ := by
  simp [nth]

/-- The seconds that `at?` computes, which do not wrap. -/
theorem toNat_seconds (base : UInt32) {index : Nat} (h : index < 2 ^ 64) :
    (base.toUInt64 + UInt64.ofNat index / 1000).toNat = base.toNat + index / 1000 := by
  have bound := base.toNat_lt
  rw [UInt64.toNat_add, UInt64.toNat_div, UInt64.toNat_ofNat_of_lt' h]
  simp only [UInt32.toNat_toUInt64, UInt64.reduceToNat]
  omega

theorem at?_of_lt_room {base : UInt32} {index : Nat} (h : index < room base) :
    at? base (.ofNat index) = some (nth base index) := by
  have bound := base.toNat_lt
  have index_lt : index < 2 ^ 64 := Nat.lt_trans h (room_lt base)
  have seconds := toNat_seconds base index_lt
  unfold room at h
  have fits : base.toUInt64 + UInt64.ofNat index / 1000 ≤ 0xFFFFFFFF := by
    rw [UInt64.le_iff_toNat_le, seconds]
    show base.toNat + index / 1000 ≤ 4294967295
    omega
  -- neither the sum nor the product leaves its width before it is cut to 32 bits
  have second_eq : (base.toUInt64 + UInt64.ofNat index / 1000).toUInt32
      = .ofNat (base.toNat + index / 1000) := by
    apply UInt32.toNat_inj.mp
    rw [UInt64.toNat_toUInt32, seconds, UInt32.toNat_ofNat']
  have micros_eq : (UInt64.ofNat index % 1000).toUInt32 * 1000
      = .ofNat (index % 1000 * 1000) := by
    apply UInt32.toNat_inj.mp
    rw [UInt32.toNat_mul, UInt64.toNat_toUInt32, UInt64.toNat_mod,
      UInt64.toNat_ofNat_of_lt' index_lt, UInt32.toNat_ofNat']
    simp only [UInt32.reduceToNat, UInt64.reduceToNat]
    omega
  rw [at?, if_pos fits, second_eq, micros_eq, nth]

theorem at?_of_room_le {base : UInt32} {index : Nat} (h : room base ≤ index)
    (index_lt : index < 2 ^ 64) : at? base (.ofNat index) = none := by
  have seconds := toNat_seconds base index_lt
  unfold room at h
  have full : ¬base.toUInt64 + UInt64.ofNat index / 1000 ≤ 0xFFFFFFFF := by
    rw [UInt64.le_iff_toNat_le, seconds]
    show ¬base.toNat + index / 1000 ≤ 4294967295
    omega
  rw [at?, if_neg full]

theorem toNat_nth_seconds {base : UInt32} {index : Nat} (h : index < room base) :
    (nth base index).seconds.toNat = base.toNat + index / 1000 := by
  unfold room at h
  exact UInt32.toNat_ofNat_of_lt' (by show _ < 2 ^ 32; omega)

theorem toNat_nth_micros (base : UInt32) (index : Nat) :
    (nth base index).micros.toNat = index % 1000 * 1000 :=
  UInt32.toNat_ofNat_of_lt' (by show _ < 2 ^ 32; omega)

/-- In microseconds the clock counts `1000` for every index. -/
theorem micros_nth {base : UInt32} {index : Nat} (h : index < room base) :
    (nth base index).seconds.toNat * 1000000 + (nth base index).micros.toNat
        = base.toNat * 1000000 + index * 1000 ∧
      (nth base index).micros.toNat < 1000000 := by
  rw [toNat_nth_seconds h, toNat_nth_micros]
  omega

/-- The clock never goes back. -/
theorem before_nth_eq_false {base : UInt32} {i j : Nat} (h : i ≤ j) (hj : j < room base) :
    (nth base j).before (nth base i) = false := by
  have seconds_i := toNat_nth_seconds (Nat.lt_of_le_of_lt h hj)
  have seconds_j := toNat_nth_seconds hj
  have micros_i := toNat_nth_micros base i
  have micros_j := toNat_nth_micros base j
  -- the seconds of a later index are no fewer, and within one second the microseconds are not
  rw [before, Bool.or_eq_false_iff, Bool.and_eq_false_iff]
  constructor
  · rw [decide_eq_false_iff_not, UInt32.lt_iff_toNat_lt]
    omega
  · by_cases same : (nth base j).seconds = (nth base i).seconds
    · right
      rw [decide_eq_false_iff_not, UInt32.lt_iff_toNat_lt]
      have := congrArg UInt32.toNat same
      omega
    · left
      rw [beq_eq_false_iff_ne]
      exact same

end SwapCapture.Timestamp
