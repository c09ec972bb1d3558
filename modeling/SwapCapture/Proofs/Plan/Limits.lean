/-
A run on a device with limits.

All that a run does to its device is to hand it one piece after the other, for as many frames as the
clock has room for (`run_eq_pieces`).  So its outcome is settled by the limits of the device and by
two numbers of the plan, how many swaps it asks for and how many of them can be stamped:

* `outcomeOn` — the outcome, by what comes first: an empty chunk, a full disk, the end of the clock,
  a flush that fails;
* `run_of_room`, `run_of_full`, `run_of_emptyChunk` — the three ways that the pieces may go;
* `run_withLimits` — the outcome of every run, and what is on the device after it.
-/
import SwapCapture.Proofs.Device.Room
import SwapCapture.Proofs.Plan.Traffic

namespace SwapCapture.Plan

open Pcap Device

/-- The number of swaps of `plan` that the clock has room for. -/
def stamped (plan : Plan) : Nat := min plan.count.toNat ((2 ^ 32 - plan.base.toNat) * 1000)

/-- The pieces that a run hands to its device: the file header, and the record header and the frame
of every swap that is `stamped`. -/
def pieces (plan : Plan) : List Bytes := filePieces plan.base (plan.frames.take plan.stamped)

/-- The outcome of a run on a device that takes all `pieces`. -/
def outcomeOfRoom (plan : Plan) (failsFlush : Bool) : Except Plan.Fault Summary :=
  if plan.stamped < plan.count.toNat then
    .error (.write (.timestampOverflow (.ofNat plan.stamped)))
  else if failsFlush then .error (.write (.device (.other "flush failed")))
  else .ok (plan.summaryOf (totals plan.base plan.frames))

/-- The outcome of a run on a device of the given limits. -/
def outcomeOn (plan : Plan) (limit chunk : Option Nat) (failsFlush : Bool) :
    Except Plan.Fault Summary :=
  if chunk = some 0 then .error (.write (.device .writeZero))
  else if limit.any (· < 24 + 106 * plan.stamped) then
    .error (.write (.device (.other "disk full")))
  else plan.outcomeOfRoom failsFlush

/-! ### The pieces of a run -/

theorem length_pieces_flatten (plan : Plan) :
    plan.pieces.flatten.length = 24 + 106 * plan.stamped := by
  have uniform : ∀ frame ∈ plan.frames.take plan.stamped, frame.length = 90 :=
    fun frame mem => length_of_mem_frames plan frame (List.mem_of_mem_take mem)
  have length_eq := length_image_of_uniform plan.base uniform
  have within : plan.stamped ≤ plan.count.toNat := Nat.min_le_left _ _
  rw [List.length_take, length_frames, Nat.min_eq_left within] at length_eq
  exact length_eq

/-- All that a run does to its device is to hand it its `pieces` and to flush it at the end. -/
theorem run_eq_pieces {δ : Type} [Device δ] (plan : Plan) (device : δ) :
    plan.run device
      = match writeEach device plan.pieces with
        | (.error fault, after) => (.error (.write (.device fault)), after)
        | (.ok (), after) =>
          if plan.stamped < plan.count.toNat then
            (.error (.write (.timestampOverflow (.ofNat plan.stamped))), after)
          else
            match flush after with
            | (.error fault, after) => (.error (.write (.device fault)), after)
            | (.ok (), after) => (.ok (plan.summaryOf (totals plan.base plan.frames)), after) := by
  have kept : plan.frames.take (Timestamp.room plan.base) = plan.frames.take plan.stamped := by
    rw [List.take_eq_take_iff, length_frames, stamped, Timestamp.room]
    omega
  rw [run_eq, writeAll_eq_deliver _ _ (short_of_mem_frames plan), deliver, kept, pieces,
    length_frames]
  rcases writeEach device (filePieces plan.base (plan.frames.take plan.stamped))
    with ⟨fault | _, after⟩
  · rfl
  simp only
  -- the clock ends before the swaps do, or all of them are stamped
  by_cases beyond : Timestamp.room plan.base < plan.count.toNat
  · have stamped_eq : plan.stamped = Timestamp.room plan.base :=
      Nat.min_eq_right (Nat.le_of_lt beyond)
    rw [if_pos beyond, stamped_eq, if_pos beyond]
  · have stamped_eq : plan.stamped = plan.count.toNat := Nat.min_eq_left (Nat.not_lt.mp beyond)
    rw [if_neg beyond, stamped_eq, if_neg (Nat.lt_irrefl _)]
    rcases flush after with ⟨fault | _, last⟩
    · rfl
    · rfl

/-! ### The three ways that the pieces may go -/

theorem run_of_room (plan : Plan) {device : Bounded} (positive : device.chunk ≠ some 0)
    (room : device.hasRoom (24 + 106 * plan.stamped) = true) :
    (plan.run device).1 = plan.outcomeOfRoom device.failsFlush ∧
      contents (plan.run device).2 = contents device ++ plan.pieces.flatten := by
  rw [← length_pieces_flatten] at room
  obtain ⟨after, written, alike⟩ := Bounded.writeEach_of_room positive room
  have held := contents_writeEach_ok written
  have flush_eq : flush after
      = if device.failsFlush then (.error (.other "flush failed"), after) else (.ok (), after) := by
    rw [← alike.failsFlush_eq]
    rfl
  rw [run_eq_pieces, written, outcomeOfRoom]
  simp only
  -- the clock is looked at before the flush
  by_cases beyond : plan.stamped < plan.count.toNat
  · rw [if_pos beyond, if_pos beyond]
    exact ⟨rfl, held⟩
  rw [if_neg beyond, if_neg beyond, flush_eq]
  cases device.failsFlush with
  | true => exact ⟨rfl, held⟩
  | false => exact ⟨rfl, held⟩

theorem run_of_emptyChunk (plan : Plan) {device : Bounded} (empty : device.chunk = some 0)
    (within : device.hasRoom 0 = true) :
    (plan.run device).1 = .error (.write (.device .writeZero)) ∧
      contents (plan.run device).2 = contents device := by
  have nonempty : fileHeader ≠ [] := by decide
  obtain ⟨after, torn, held⟩ : ∃ after, writeEach device plan.pieces = (.error .writeZero, after) ∧
      contents after = contents device :=
    Bounded.writeEach_of_emptyChunk empty within nonempty
  rw [run_eq_pieces, torn]
  exact ⟨rfl, held⟩

/-- Without chunks a full device holds the most pieces that there was room for. -/
theorem run_of_full (plan : Plan) {device : Bounded} (positive : device.chunk ≠ some 0)
    (within : device.hasRoom 0 = true) (full : device.hasRoom (24 + 106 * plan.stamped) = false) :
    (plan.run device).1 = .error (.write (.device (.other "disk full"))) ∧
      (device.chunk = none → ∃ whole piece rest, plan.pieces = whole ++ piece :: rest ∧
        contents (plan.run device).2 = contents device ++ whole.flatten ∧
        device.hasRoom whole.flatten.length = true ∧
        device.hasRoom (whole.flatten.length + piece.length) = false) := by
  rw [← length_pieces_flatten] at full
  obtain ⟨after, torn, most⟩ := Bounded.writeEach_of_full positive within full
  rw [run_eq_pieces, torn]
  exact ⟨rfl, most⟩

/-- Whatever becomes of a run, its device holds a front of its `pieces`. -/
theorem contents_run_prefix {δ : Type} [Device δ] (plan : Plan) {device : δ}
    (empty : contents device = []) :
    contents (plan.run device).2 <+: plan.pieces.flatten := by
  have front : contents (writeEach device plan.pieces).2 <+: plan.pieces.flatten :=
    contents_writeEach_prefix empty
  rw [run_eq_pieces]
  rcases written : writeEach device plan.pieces with ⟨fault | _, after⟩
  · rwa [written] at front
  rw [written] at front
  simp only
  split
  · exact front
  -- a flush adds nothing, whether or not it fails
  have stored_eq := contents_flush after
  rcases stored : flush after with ⟨fault | _, last⟩
  · rw [stored] at stored_eq
    rwa [← stored_eq] at front
  · rw [stored] at stored_eq
    rwa [← stored_eq] at front

/-- No plan has a swap whose frame is refused. -/
theorem run_ne_frame {δ : Type} [Device δ] (plan : Plan) (device : δ) (index : UInt64)
    (cause : FrameFault) : (plan.run device).1 ≠ .error (.frame index cause) := by
  rw [run_eq]
  rcases writeAll device plan.base plan.frames with ⟨fault | capture, after⟩
  · intro same
    cases same
  · intro same
    cases same

/-! ### The limits of a device -/

/-- Of the pieces in front no more fit than those before the first one that does not. -/
theorem take_flatten_prefix {pieces whole rest : List Bytes} {piece : Bytes} {room k : Nat}
    (split : pieces = whole ++ piece :: rest)
    (beyond : room < whole.flatten.length + piece.length)
    (fits : (pieces.take k).flatten.length ≤ room) :
    (pieces.take k).flatten <+: whole.flatten := by
  rw [split] at fits ⊢
  by_cases within : k ≤ whole.length
  · rw [List.take_append_of_le_length within]
    refine ⟨(whole.drop k).flatten, ?_⟩
    rw [← List.flatten_append, List.take_append_drop]
  · -- the first `k` pieces hold `piece`, for which there is no room
    obtain ⟨m, rfl⟩ : ∃ m, k = whole.length + (m + 1) := ⟨k - whole.length - 1, by omega⟩
    rw [List.take_length_add_append, List.take_succ_cons, List.flatten_append, List.flatten_cons,
      List.length_append, List.length_append] at fits
    omega

theorem hasRoom_withLimits (limit chunk : Option Nat) (failsFlush : Bool) (n : Nat) :
    (Bounded.withLimits limit chunk failsFlush).hasRoom n = !limit.any (· < n) := by
  rw [Bounded.hasRoom, Bounded.withLimits]
  cases limit with
  | none => rfl
  | some room =>
    simp only [ByteLog.size_eq, ByteLog.toList_empty, List.length_nil, Nat.zero_add,
      Option.any_some]
    by_cases fits : n ≤ room
    · rw [decide_eq_true fits, decide_eq_false (Nat.not_lt.mpr fits)]
      rfl
    · rw [decide_eq_false fits, decide_eq_true (Nat.not_le.mp fits)]
      rfl

/-- A device that meets none of its limits is left with all `pieces`. -/
theorem contents_run_of_room (plan : Plan) {limit chunk : Option Nat} (failsFlush : Bool)
    (positive : chunk ≠ some 0) (room : ∀ n ∈ limit, 24 + 106 * plan.stamped ≤ n) :
    contents (plan.run (Bounded.withLimits limit chunk failsFlush)).2 = plan.pieces.flatten := by
  have fits : (Bounded.withLimits limit chunk failsFlush).hasRoom (24 + 106 * plan.stamped)
      = true := by
    rw [Bounded.hasRoom_iff]
    intro n mem
    show 0 + (24 + 106 * plan.stamped) ≤ n
    rw [Nat.zero_add]
    exact room n mem
  exact (run_of_room plan positive fits).2

theorem contents_run_memory (plan : Plan) :
    contents (plan.run Bounded.memory).2 = plan.pieces.flatten :=
  contents_run_of_room plan false (by decide) (by simp)

/-- A device that stops a run without chunks is left with the most pieces that fit. -/
theorem contents_run_of_full (plan : Plan) {room : Nat} (failsFlush : Bool)
    (full : room < 24 + 106 * plan.stamped) :
    ∃ j, contents (plan.run (Bounded.withLimits (some room) none failsFlush)).2
        = (plan.pieces.take j).flatten ∧
      (plan.pieces.take j).flatten.length ≤ room ∧
      ∀ k, (plan.pieces.take k).flatten.length ≤ room →
        (plan.pieces.take k).flatten <+: (plan.pieces.take j).flatten := by
  have within : (Bounded.withLimits (some room) none failsFlush).hasRoom 0 = true :=
    hasRoom_withLimits _ _ _ _
  have no_room : (Bounded.withLimits (some room) none failsFlush).hasRoom
      (24 + 106 * plan.stamped) = false := by
    rw [hasRoom_withLimits, Option.any_some, decide_eq_true full]
    rfl
  obtain ⟨whole, piece, rest, split, held, fits, beyond⟩ :=
    (run_of_full plan (by intro same; cases same) within no_room).2 rfl
  -- the pieces that were written are a front of all pieces
  have front : plan.pieces.take whole.length = whole := by rw [split, List.take_left]
  rw [hasRoom_withLimits, Option.any_some, Bool.not_eq_true', decide_eq_false_iff_not] at fits
  rw [hasRoom_withLimits, Option.any_some, Bool.not_eq_false', decide_eq_true_eq] at beyond
  refine ⟨whole.length, ?_, ?_, ?_⟩
  · rw [front]
    exact held
  · rw [front]
    exact Nat.not_lt.mp fits
  · intro k shorter
    rw [front]
    exact take_flatten_prefix split beyond shorter

/-- What comes first settles the outcome: the chunk, the limit, the clock, then the flush. -/
theorem run_outcome (plan : Plan) (limit chunk : Option Nat) (failsFlush : Bool) :
    (plan.run (Bounded.withLimits limit chunk failsFlush)).1
      = plan.outcomeOn limit chunk failsFlush := by
  have within : (Bounded.withLimits limit chunk failsFlush).hasRoom 0 = true := by
    rw [hasRoom_withLimits]
    cases limit with
    | none => rfl
    | some room => rfl
  have room_eq := hasRoom_withLimits limit chunk failsFlush (24 + 106 * plan.stamped)
  -- an empty chunk fails at the first piece, whatever room there is
  rw [outcomeOn]
  by_cases empty : chunk = some 0
  · rw [if_pos empty]
    exact (run_of_emptyChunk plan empty within).1
  rw [if_neg empty]
  cases full : limit.any (· < 24 + 106 * plan.stamped) with
  | true =>
    rw [full] at room_eq
    exact (run_of_full plan empty within room_eq).1
  | false =>
    rw [full] at room_eq
    exact (run_of_room plan empty room_eq).1

/-- **A run on a device with limits.** Its outcome is `outcomeOn` the limits and the number of swaps
that can be stamped, and it is never a refused frame.  The device is left with a front of what a
device without limits is left with: with all of it if there is room and the chunks are not empty,
and with the most `pieces` that fit if a limit stops a run without chunks.  As long as no limit is
met the size of the chunks makes no difference. -/
theorem run_withLimits (plan : Plan) (limit chunk : Option Nat) (failsFlush : Bool) :
    let device := Bounded.withLimits limit chunk failsFlush
    let unlimited := contents (plan.run Bounded.memory).2
    let need := 24 + 106 * plan.stamped
    (plan.run device).1 = plan.outcomeOn limit chunk failsFlush ∧
      (∀ index cause, (plan.run device).1 ≠ .error (.frame index cause)) ∧
      contents (plan.run device).2 <+: unlimited ∧
      (chunk ≠ some 0 → (∀ room ∈ limit, need ≤ room) →
        contents (plan.run device).2 = unlimited) ∧
      (unlimited = plan.pieces.flatten ∧
        ∀ room, limit = some room → chunk = none → room < need →
          ∃ j, contents (plan.run device).2 = (plan.pieces.take j).flatten ∧
            (plan.pieces.take j).flatten.length ≤ room ∧
            ∀ k, (plan.pieces.take k).flatten.length ≤ room →
              (plan.pieces.take k).flatten <+: (plan.pieces.take j).flatten) ∧
      (chunk ≠ some 0 → (∀ room ∈ limit, need ≤ room) →
        ∀ other, other ≠ some 0 →
          (plan.run (Bounded.withLimits limit other failsFlush)).1 = (plan.run device).1 ∧
          contents (plan.run (Bounded.withLimits limit other failsFlush)).2
            = contents (plan.run device).2) := by
  intro device unlimited need
  have unlimited_eq : unlimited = plan.pieces.flatten := contents_run_memory plan
  refine ⟨run_outcome plan limit chunk failsFlush, run_ne_frame plan device, ?_, ?_,
    ⟨unlimited_eq, ?_⟩, ?_⟩
  · rw [unlimited_eq]
    exact contents_run_prefix plan rfl
  · intro positive room
    rw [unlimited_eq]
    exact contents_run_of_room plan failsFlush positive room
  · rintro room rfl rfl full
    exact contents_run_of_full plan failsFlush full
  -- with room for all pieces neither the outcome nor the content depends on the chunks
  · intro positive room other other_positive
    constructor
    · rw [run_outcome, run_outcome, outcomeOn, outcomeOn, if_neg positive, if_neg other_positive]
    · rw [contents_run_of_room plan failsFlush positive room,
        contents_run_of_room plan failsFlush other_positive room]

/-- A thousand swaps in the last second of the clock and one more, on a device that has just the
room for the thousand, takes seven bytes at a time and would not be flushed. -/
theorem run_withLimits_lastSecond :
    ∃ plan : Plan, plan.count = 1001 ∧
      (plan.run (Bounded.withLimits (some 106024) (some 7) true)).1
        = .error (.write (.timestampOverflow 1000)) ∧
      contents (plan.run (Bounded.withLimits (some 106024) (some 7) true)).2
        = contents (plan.run Bounded.memory).2 := by
  let plan : Plan := { Plan.default with count := 1001, base := 0xFFFFFFFF }
  have stamped_eq : plan.stamped = 1000 := by decide
  obtain ⟨outcome, -, -, all, -⟩ := run_withLimits plan (some 106024) (some 7) true
  refine ⟨plan, rfl, ?_, all (by decide) ?_⟩
  · have room : ¬(some 106024).any (· < 24 + 106 * plan.stamped) = true := by decide
    have beyond : plan.stamped < plan.count.toNat := by decide
    rw [outcome, outcomeOn, if_neg (by decide), if_neg room, outcomeOfRoom, if_pos beyond,
      stamped_eq]
    rfl
  · intro room mem
    cases mem
    decide

end SwapCapture.Plan
