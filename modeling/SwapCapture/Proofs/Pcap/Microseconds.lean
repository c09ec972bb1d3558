/-
The clock in microseconds since 1970.

A time is one number, its microseconds since the epoch, as long as it has less than a million of
them within the second.  In these numbers the clock is linear, a thousand for every index, and it
ends where the seconds no longer fit in 32 bits.  All else that is said of the clock follows from
that:

* `inMicros` — a time as one number, and `before_iff_inMicros`, that earlier means smaller;
* `at?_eq_none_iff`, `at?_eq_some_iff` — where the clock has ended, and what it gives before;
* `reckon?`, `reckon?_eq` — the clock step by step in plain numbers, none of which leaves its width;
* `at?_add_base` — a later base second is a later index;
* `clock_exact` — all of this over the whole range of indexes.
-/
import SwapCapture.Proofs.Pcap.Clock

namespace SwapCapture.Timestamp

/-- `t` as microseconds since the start of 1970. -/
def inMicros (t : Timestamp) : Nat := t.seconds.toNat * 1000000 + t.micros.toNat

theorem eq_of_inMicros {t u : Timestamp} (t_lt : t.micros.toNat < 1000000)
    (u_lt : u.micros.toNat < 1000000) (h : t.inMicros = u.inMicros) : t = u := by
  rw [inMicros, inMicros] at h
  have seconds_eq : t.seconds = u.seconds := UInt32.toNat_inj.mp (by omega)
  have micros_eq : t.micros = u.micros := UInt32.toNat_inj.mp (by omega)
  cases t
  cases u
  rw [mk.injEq]
  exact ⟨seconds_eq, micros_eq⟩

/-- The order by `seconds` and then by `micros` is that of the numbers. -/
theorem before_iff_inMicros {t u : Timestamp} (t_lt : t.micros.toNat < 1000000)
    (u_lt : u.micros.toNat < 1000000) : t.before u ↔ t.inMicros < u.inMicros := by
  simp only [before, inMicros, Bool.or_eq_true, Bool.and_eq_true, decide_eq_true_eq, beq_iff_eq,
    UInt32.lt_iff_toNat_lt, ← UInt32.toNat_inj]
  omega

/-! ### What the clock gives -/

theorem at?_eq_none_iff (base : UInt32) (index : UInt64) :
    at? base index = none ↔ 2 ^ 32 * 1000 ≤ base.toNat * 1000 + index.toNat := by
  have base_lt := base.toNat_lt
  have ended_iff : room base ≤ index.toNat ↔ 2 ^ 32 * 1000 ≤ base.toNat * 1000 + index.toNat := by
    rw [room]
    omega
  rw [← ended_iff, ← UInt64.ofNat_toNat (x := index)]
  constructor
  · intro ended
    by_contra running
    rw [at?_of_lt_room (by simpa using running)] at ended
    cases ended
  · intro ended
    rw [UInt64.ofNat_toNat] at ended
    exact at?_of_room_le ended index.toNat_lt

/-- The time at `index` is the only one with its number of microseconds. -/
theorem at?_eq_some_iff {base : UInt32} {index : UInt64} {t : Timestamp} :
    at? base index = some t ↔
      t.micros.toNat < 1000000 ∧ t.inMicros = base.toNat * 1000000 + index.toNat * 1000 := by
  have sound {u : Timestamp} (h : at? base index = some u) : u.micros.toNat < 1000000 ∧
      u.inMicros = base.toNat * 1000000 + index.toNat * 1000 := by
    have running : index.toNat < room base := by
      by_contra ended
      rw [← UInt64.ofNat_toNat (x := index),
        at?_of_room_le (Nat.not_lt.mp ended) index.toNat_lt] at h
      cases h
    obtain ⟨linear, small⟩ := micros_nth running
    rw [← UInt64.ofNat_toNat (x := index), at?_of_lt_room running] at h
    cases h
    exact ⟨small, linear⟩
  constructor
  · exact sound
  -- a number that fits in 32 bits of seconds is before the end of the clock
  · rintro ⟨small, linear⟩
    have bound := t.seconds.toNat_lt
    have running : at? base index ≠ none := by
      rw [Ne, at?_eq_none_iff]
      rw [inMicros] at linear
      omega
    obtain ⟨u, found⟩ := Option.ne_none_iff_exists'.mp running
    obtain ⟨u_small, u_linear⟩ := sound found
    rw [found, eq_of_inMicros small u_small (linear.trans u_linear.symm)]

/-- A base second that is `k` later is an index that is `1000 * k` later. -/
theorem at?_add_base {base : UInt32} {k i : Nat} (base_fits : base.toNat + k < 2 ^ 32)
    (index_fits : i + 1000 * k < 2 ^ 64) :
    at? (base + .ofNat k) (.ofNat i) = at? base (.ofNat (i + 1000 * k)) := by
  have base_eq : (base + UInt32.ofNat k).toNat = base.toNat + k := by
    rw [UInt32.toNat_add, UInt32.toNat_ofNat_of_lt' (show k < 2 ^ 32 by omega),
      Nat.mod_eq_of_lt base_fits]
  have index_eq : (UInt64.ofNat i).toNat = i :=
    UInt64.toNat_ofNat_of_lt' (show i < 2 ^ 64 by omega)
  have later_eq : (UInt64.ofNat (i + 1000 * k)).toNat = i + 1000 * k :=
    UInt64.toNat_ofNat_of_lt' index_fits
  -- both sides are the time with the same number, if there is one
  apply Option.ext
  intro t
  rw [at?_eq_some_iff, at?_eq_some_iff, base_eq, index_eq, later_eq]
  have same : (base.toNat + k) * 1000000 + i * 1000
      = base.toNat * 1000000 + (i + 1000 * k) * 1000 := by omega
  rw [same]

/-! ### The steps of the clock -/

/-- `n`, if it fits in a word of the given width. -/
def fits? (width n : Nat) : Option Nat := if n < 2 ^ width then some n else none

theorem fits?_of_lt {width n : Nat} (h : n < 2 ^ width) : fits? width n = some n := if_pos h

/-- The clock in plain numbers.  Each step gives nothing if its result leaves the width that it is
computed in, and only the seconds are then asked whether they fit in 32 bits. -/
def reckon? (base index : Nat) : Option (Option (Nat × Nat)) := do
  let seconds ← fits? 64 (base + index / 1000)
  let rest ← fits? 32 (index % 1000)
  let micros ← fits? 32 (rest * 1000)
  pure ((fits? 32 seconds).map fun seconds => (seconds, micros))

/-- No step of `reckon?` leaves its width, and the machine gives the same time. -/
theorem reckon?_eq (base : UInt32) (index : UInt64) :
    reckon? base.toNat index.toNat
      = some ((at? base index).map fun t => (t.seconds.toNat, t.micros.toNat)) := by
  have base_lt := base.toNat_lt
  have index_lt := index.toNat_lt
  -- only the seconds can be too large, and they are so where the clock has ended
  have steps : reckon? base.toNat index.toNat
      = some ((fits? 32 (base.toNat + index.toNat / 1000)).map
          fun seconds => (seconds, index.toNat % 1000 * 1000)) := by
    rw [reckon?, fits?_of_lt (show base.toNat + index.toNat / 1000 < 2 ^ 64 by omega),
      fits?_of_lt (show index.toNat % 1000 < 2 ^ 32 by omega)]
    simp only [Option.bind_eq_bind, Option.bind_some,
      fits?_of_lt (show index.toNat % 1000 * 1000 < 2 ^ 32 by omega)]
    rfl
  rw [steps]
  congr 1
  cases found : at? base index with
  | none =>
    rw [at?_eq_none_iff] at found
    rw [fits?, if_neg (by omega)]
    rfl
  | some t =>
    obtain ⟨small, linear⟩ := at?_eq_some_iff.mp found
    have bound := t.seconds.toNat_lt
    rw [inMicros] at linear
    have seconds_eq : t.seconds.toNat = base.toNat + index.toNat / 1000 := by omega
    have micros_eq : t.micros.toNat = index.toNat % 1000 * 1000 := by omega
    rw [← seconds_eq, ← micros_eq, fits?_of_lt bound]
    rfl

/-! ### The whole range -/

/-- **Synthetic time is exact over the whole index range.**  The clock of a base second has ended
just for the indexes whose milliseconds are not below `2 ^ 32` seconds.  Before that it gives the one
time whose microseconds count a thousand for every index, and no step leaves its width.  So times
tell indexes and their order apart, no time is missing in front of another one, and a base second
that is `k` later is an index that is `1000 * k` later. -/
theorem clock_exact (base : UInt32) :
    (∀ index, at? base index = none ↔ 2 ^ 32 * 1000 ≤ base.toNat * 1000 + index.toNat) ∧
    (∀ index t, at? base index = some t ↔ t.micros.toNat < 1000000 ∧
      t.seconds.toNat * 1000000 + t.micros.toNat
        = base.toNat * 1000000 + index.toNat * 1000) ∧
    (∀ index : UInt64, reckon? base.toNat index.toNat
      = some ((at? base index).map fun t => (t.seconds.toNat, t.micros.toNat))) ∧
    (∀ i j t u, at? base i = some t → at? base j = some u →
      (t = u ↔ i = j) ∧ (t.before u ↔ i < j)) ∧
    (∀ i j, i ≤ j → at? base j ≠ none → at? base i ≠ none) ∧
    ∀ k i, base.toNat + k < 2 ^ 32 → i + 1000 * k < 2 ^ 64 →
      at? (base + .ofNat k) (.ofNat i) = at? base (.ofNat (i + 1000 * k)) := by
  refine ⟨at?_eq_none_iff base, fun index t => at?_eq_some_iff, reckon?_eq base, ?_, ?_,
    fun k i => at?_add_base⟩
  -- the microseconds of both times settle their order and that of the indexes
  · intro i j t u at_i at_j
    obtain ⟨t_lt, t_eq⟩ := at?_eq_some_iff.mp at_i
    obtain ⟨u_lt, u_eq⟩ := at?_eq_some_iff.mp at_j
    constructor
    · constructor
      · rintro rfl
        apply UInt64.toNat_inj.mp
        omega
      · rintro rfl
        exact Option.some.inj (at_i.symm.trans at_j)
    · rw [before_iff_inMicros t_lt u_lt, t_eq, u_eq, UInt64.lt_iff_toNat_lt]
      omega
  · intro i j le running
    rw [Ne, at?_eq_none_iff] at running ⊢
    rw [UInt64.le_iff_toNat_le] at le
    omega

/-- The last millisecond before the clock of `defaultBase` ends, and the last second that a clock
can begin with. -/
theorem clock_exact_lastSecond :
    at? defaultBase 2594967295999 = some ⟨0xFFFFFFFF, 999000⟩ ∧
      at? defaultBase 2594967296000 = none ∧
      at? 0xFFFFFFFF 999 = at? defaultBase 2594967295999 := by
  obtain ⟨ended, given, -, -, -, shifted⟩ := clock_exact defaultBase
  refine ⟨(given _ _).mpr (by decide), (ended _).mpr (by decide), ?_⟩
  exact shifted 2594967295 999 (by decide) (by decide)

end SwapCapture.Timestamp
