/-
The times that a writer gives out.

A call takes the next time of the clock just if it stores its frame, so faults leave no gap between
the times and repeat none of them.  The clock has room for a certain number of frames, and a writer
that has stored as many never changes again.

* `Writer.Stamped` — what a writer knows after a number of stored frames;
* `Writer.Stamped.append` — one call, which stores a frame or leaves the number as it was;
* `Writer.Stamped.offer` — many calls: the times that they return are those of the clock in a row;
* `Writer.Stamped.offer_of_full` — a writer whose clock has ended;
* `Writer.stamps_of_offer` — all of this for every state that an opened writer comes to.
-/
import SwapCapture.Proofs.Device.Room
import SwapCapture.Proofs.Pcap.Calls

namespace SwapCapture.Pcap.Writer

open Device

variable {δ : Type}

/-- A writer that has stored `n` frames, as its clock knows them. -/
structure Stamped (w : Writer δ) (base : UInt32) (n : Nat) : Prop where
  base_eq : w.base = base
  frames_eq : w.frames = .ofNat n
  within : n ≤ Timestamp.room base
  lastTime_eq : w.lastTime = Pcap.lastTime base n

namespace Stamped

variable {w : Writer δ} {base : UInt32} {n : Nat}

theorem toNat_frames (h : w.Stamped base n) : w.frames.toNat = n := by
  rw [h.frames_eq]
  exact UInt64.toNat_ofNat_of_lt' (Nat.lt_of_le_of_lt h.within (Timestamp.room_lt base))

theorem at?_eq_none_iff (h : w.Stamped base n) :
    Timestamp.at? w.base w.frames = none ↔ n = Timestamp.room base := by
  rw [h.base_eq, h.frames_eq]
  constructor
  · intro ended
    by_contra room
    have within := h.within
    rw [Timestamp.at?_of_lt_room (by omega)] at ended
    cases ended
  · rintro rfl
    exact Timestamp.at?_of_room_le (Nat.le_refl _) (Timestamp.room_lt base)

/-- The time for the next frame, if there is one, is that of the number of frames stored. -/
theorem of_admits {frame : Bytes} {time : Timestamp} (h : w.Stamped base n)
    (admits : w.Admits frame time) : n < Timestamp.room base ∧ time = .nth base n := by
  have room : n < Timestamp.room base := by
    refine Nat.lt_of_le_of_ne h.within fun full => ?_
    have ended := h.at?_eq_none_iff.mpr full
    rw [admits.1] at ended
    cases ended
  have clock := admits.1
  rw [h.base_eq, h.frames_eq, Timestamp.at?_of_lt_room room] at clock
  exact ⟨room, (Option.some.inj clock).symm⟩

variable [Device δ]

/-- One call takes the next time of the clock and stores its frame, or it fails and takes none. -/
theorem append (h : w.Stamped base n) (frame : Bytes) :
    ((w.append frame).1 = .ok (.nth base n) ∧ (w.append frame).2.Stamped base (n + 1)) ∨
      ∃ fault, (w.append frame).1 = .error fault ∧ (w.append frame).2.Stamped base n := by
  rcases answered : w.append frame with ⟨result, next⟩
  cases called_of_append answered with
  | overflow => exact .inr ⟨_, rfl, h⟩
  | tooLarge => exact .inr ⟨_, rfl, h⟩
  -- a torn frame leaves the clock where it is
  | headerTorn => exact .inr ⟨_, rfl, h.base_eq, h.frames_eq, h.within, h.lastTime_eq⟩
  | frameTorn => exact .inr ⟨_, rfl, h.base_eq, h.frames_eq, h.within, h.lastTime_eq⟩
  | @stored time middle after admits =>
    obtain ⟨room, rfl⟩ := h.of_admits admits
    refine .inl ⟨rfl, h.base_eq, ?_, room, rfl⟩
    show w.frames + 1 = .ofNat (n + 1)
    rw [h.frames_eq, UInt64.ofNat_add]
    rfl

/-- The `times` that some calls return are those of the clock in a row. -/
theorem offer (h : w.Stamped base n) (frames : List Bytes) :
    ∃ m, times (w.offer frames).1 = (List.range' n m).map (Timestamp.nth base) ∧
      (w.offer frames).2.Stamped base (n + m) := by
  induction frames generalizing w n with
  | nil => exact ⟨0, rfl, h⟩
  | cons frame rest ih =>
    rw [offer_cons]
    rcases h.append frame with ⟨returned, next⟩ | ⟨fault, returned, next⟩
    · obtain ⟨m, returned', last⟩ := ih next
      refine ⟨m + 1, ?_, by rwa [Nat.add_right_comm, Nat.add_assoc] at last⟩
      rw [returned, times_cons_ok, returned', List.range'_succ, List.map_cons]
    · obtain ⟨m, returned', last⟩ := ih next
      exact ⟨m, by rw [returned, times_cons_error, returned'], last⟩

/-- A call says that the clock has ended just if it has. -/
theorem append_eq_overflow_iff (h : w.Stamped base n) (frame : Bytes) (index : UInt64) :
    (w.append frame).1 = .error (.timestampOverflow index) ↔
      n = Timestamp.room base ∧ index = w.frames := by
  rw [← h.at?_eq_none_iff]
  exact w.append_eq_overflow_iff frame index

/-- Once the clock has ended every call says so and changes nothing. -/
theorem offer_of_full (h : w.Stamped base n) (full : n = Timestamp.room base)
    (frames : List Bytes) :
    w.offer frames
      = (List.replicate frames.length (.error (.timestampOverflow w.frames)), w) := by
  have ended := h.at?_eq_none_iff.mpr full
  have refused (frame : Bytes) : w.append frame = (.error (.timestampOverflow w.frames), w) := by
    rw [Writer.append, accept, ended]
  induction frames with
  | nil => rfl
  | cons frame rest ih =>
    rw [offer_cons, refused, ih, List.length_cons, List.replicate_succ]

end Stamped

variable [Device δ]

/-- A writer that `create` has opened is at the start of its clock. -/
theorem stamped_of_create {device opened : δ} {base : UInt32} {w : Writer δ}
    (h : create device base = (.ok w, opened)) : w.Stamped base 0 := by
  obtain ⟨-, -, w_eq⟩ := eq_of_create h
  rw [w_eq]
  exact ⟨rfl, rfl, Nat.zero_le _, rfl⟩

/-- **Times have no gap, no repeat and a definite end.** `offer` hands an opened writer any frames,
and whatever becomes of the calls, the `times` that they return are a millisecond apart from the
start of the base second on.  The number of stored frames never passes `Timestamp.room`, the end of
the clock.  There, and only there, a call says that the clock has ended, and from then on nothing
changes any more. -/
theorem stamps_of_offer {device opened : δ} {base : UInt32} {w : Writer δ}
    (h : create device base = (.ok w, opened)) (frames : List Bytes) :
    let results := (w.offer frames).1
    let last := (w.offer frames).2
    let room := (2 ^ 32 - base.toNat) * 1000
    last.frames.toNat = (times results).length ∧ last.frames.toNat ≤ room ∧
    (∀ i time, (times results)[i]? = some time →
      Timestamp.at? base (.ofNat i) = some time ∧
      time.seconds.toNat * 1000000 + time.micros.toNat = base.toNat * 1000000 + i * 1000 ∧
      time.micros.toNat < 1000000) ∧
    (last.lastTime = none ↔ last.frames = 0) ∧
    (last.frames ≠ 0 → ∃ time, last.lastTime = some time ∧
      Timestamp.at? base (last.frames - 1) = some time) ∧
    (∀ frame index, (last.append frame).1 = .error (.timestampOverflow index) ↔
      last.frames.toNat = room ∧ index = last.frames) ∧
    (last.frames.toNat = room → ∀ more,
      last.offer more
        = (List.replicate more.length (.error (.timestampOverflow last.frames)), last)) := by
  intro results last room
  -- whatever failed, `m` frames have been stored and have the first `m` times
  obtain ⟨m, times_eq, stamped⟩ := (stamped_of_create h).offer frames
  rw [Nat.zero_add] at stamped
  have count : last.frames.toNat = m := stamped.toNat_frames
  have within : m ≤ room := stamped.within
  have times_eq : times results = (List.range' 0 m).map (Timestamp.nth base) := times_eq
  rw [count, times_eq]
  refine ⟨by simp, within, ?_, ?_, ?_, ?_, ?_⟩
  · intro i time found
    rw [List.getElem?_map, Option.map_eq_some_iff] at found
    obtain ⟨j, at_i, rfl⟩ := found
    obtain ⟨i_lt, rfl⟩ := List.getElem?_eq_some_iff.mp at_i
    rw [List.length_range'] at i_lt
    have stampable : i < Timestamp.room base := Nat.lt_of_lt_of_le i_lt within
    simp only [List.getElem_range', Nat.zero_add, Nat.one_mul]
    exact ⟨Timestamp.at?_of_lt_room stampable, Timestamp.micros_nth stampable⟩
  · rw [show last.lastTime = _ from stamped.lastTime_eq, ← UInt64.toNat_inj, count]
    cases m with
    | zero => exact iff_of_true rfl rfl
    | succ k => exact iff_of_false (Option.some_ne_none _) (Nat.succ_ne_zero k)
  · intro some_frame
    cases m with
    | zero => exact absurd (UInt64.toNat_inj.mp count) some_frame
    | succ k =>
      refine ⟨.nth base k, stamped.lastTime_eq, ?_⟩
      -- the last stamp was taken when one frame less was stored
      have previous : last.frames - 1 = .ofNat k := by
        rw [show last.frames = _ from stamped.frames_eq, UInt64.ofNat_add]
        exact UInt64.add_sub_cancel _ _
      rw [previous]
      exact Timestamp.at?_of_lt_room within
  · intro frame index
    exact stamped.append_eq_overflow_iff frame index
  · intro full more
    exact stamped.offer_of_full full more

/-- A thousand frames in the last second of the clock: behind them a writer in memory refuses every
frame, the empty one included. -/
theorem stamps_of_offer_lastSecond :
    ∃ w opened, create Bounded.memory 0xFFFFFFFF = (.ok w, opened) ∧
      let last := (w.offer (List.replicate 1000 [7])).2
      last.frames.toNat = 1000 ∧ last.lastTime = some ⟨0xFFFFFFFF, 999000⟩ ∧
      last.offer [[], [1, 2, 3]] = ([.error (.timestampOverflow last.frames),
        .error (.timestampOverflow last.frames)], last) := by
  obtain ⟨frames, frames_eq⟩ : ∃ frames : List Bytes, frames = List.replicate 1000 [7] := ⟨_, rfl⟩
  have length_eq : frames.length = 1000 := by rw [frames_eq, List.length_replicate]
  have short : ∀ frame ∈ frames, frame.length < 2 ^ 32 := by
    rw [frames_eq]
    intro frame mem
    rw [List.eq_of_mem_replicate mem]
    decide
  have fits : ([] : List Bytes).length + frames.length ≤ Timestamp.room 0xFFFFFFFF := by
    rw [length_eq]
    decide
  rw [← frames_eq]
  -- in memory all of them are stored, which brings the writer to the end of its clock
  obtain ⟨opened, written, still⟩ :=
    Device.writeAll_of_accepting Bounded.accepting_memory fileHeader
  obtain ⟨w, created, rfl, holds⟩ := create_of_written 0xFFFFFFFF written
  obtain ⟨after, pieces, -⟩ := writeEach_of_accepting still (piecesFrom 0xFFFFFFFF 0 frames)
  obtain ⟨last, appended, -⟩ := appendAll_of_writeEach holds fits short pieces
  obtain ⟨-, stored⟩ := offer_of_appendAll appended
  obtain ⟨count, -, -, -, last_time, -, ended⟩ := stamps_of_offer created frames
  rw [stored, length_eq] at count
  refine ⟨w, w.device, created, count, ?_, ended count [[], [1, 2, 3]]⟩
  have thousand : (w.offer frames).2.frames = 1000 := UInt64.toNat_inj.mp count
  obtain ⟨time, time_eq, clock⟩ := last_time (by rw [thousand]; decide)
  rw [time_eq, ← clock, thousand]
  decide

end SwapCapture.Pcap.Writer
