/-
How much a bounded device takes.

What a bounded device does with a list of pieces is settled by two numbers, the room that it has
and the length of the pieces, whatever its chunks are as long as they are not empty:

* `writeEach_of_room` — with room for all pieces it takes all of them;
* `writeEach_of_full` — without it says that it is full, and without chunks it then holds the most
  pieces that there was room for;
* `writeEach_of_emptyChunk` — with empty chunks it takes nothing;
* `accepting_of_unlimited` — without a limit it takes everything.
-/
import SwapCapture.Device.Bounded
import SwapCapture.Proofs.Device.Pieces

namespace SwapCapture.Bounded

open Device

def diskFull : DeviceFault := .other "disk full"

/-- Two states of one device: what it has taken differs, its limits do not. -/
structure Alike (a b : Bounded) : Prop where
  limit_eq : b.limit = a.limit
  chunk_eq : b.chunk = a.chunk
  failsFlush_eq : b.failsFlush = a.failsFlush

theorem Alike.refl (a : Bounded) : Alike a a := ⟨rfl, rfl, rfl⟩

theorem Alike.trans {a b c : Bounded} (first : Alike a b) (second : Alike b c) : Alike a c :=
  ⟨second.limit_eq.trans first.limit_eq, second.chunk_eq.trans first.chunk_eq,
    second.failsFlush_eq.trans first.failsFlush_eq⟩

/-! ### One write -/

theorem hasRoom_iff {device : Bounded} {n : Nat} :
    device.hasRoom n = true ↔ ∀ limit ∈ device.limit, device.log.size + n ≤ limit := by
  rw [hasRoom]
  cases device.limit <;> simp

theorem write_of_room {device : Bounded} {bytes : Bytes}
    (h : device.hasRoom (device.portion bytes).length = true) :
    Device.write device bytes = (.ok (device.portion bytes).length,
      { device with log := device.log.append (device.portion bytes) }) :=
  if_pos h

theorem write_of_full {device : Bounded} {bytes : Bytes}
    (h : device.hasRoom (device.portion bytes).length = false) :
    Device.write device bytes = (.error diskFull, device) :=
  if_neg (by rw [h]; exact Bool.false_ne_true)

/-- A write that succeeds has found room for its `portion` and taken it. -/
theorem eq_of_write_ok {device next : Bounded} {bytes : Bytes} {n : Nat}
    (h : Device.write device bytes = (.ok n, next)) :
    device.hasRoom (device.portion bytes).length = true ∧ n = (device.portion bytes).length ∧
      next = { device with log := device.log.append (device.portion bytes) } := by
  cases room : device.hasRoom (device.portion bytes).length with
  | true =>
    rw [write_of_room room] at h
    cases h
    exact ⟨rfl, rfl, rfl⟩
  | false =>
    rw [write_of_full room] at h
    cases h

/-- A write that fails has found no room for its `portion` and taken nothing. -/
theorem eq_of_write_error {device next : Bounded} {bytes : Bytes} {fault : DeviceFault}
    (h : Device.write device bytes = (.error fault, next)) :
    device.hasRoom (device.portion bytes).length = false ∧ fault = diskFull ∧ next = device := by
  cases room : device.hasRoom (device.portion bytes).length with
  | true =>
    rw [write_of_room room] at h
    cases h
  | false =>
    rw [write_of_full room] at h
    cases h
    exact ⟨rfl, rfl, rfl⟩

theorem alike_write (device : Bounded) (bytes : Bytes) :
    Alike device (Device.write device bytes).2 := by
  rcases h : Device.write device bytes with ⟨_ | _, next⟩
  · obtain ⟨-, -, rfl⟩ := eq_of_write_error h
    exact .refl _
  · obtain ⟨-, -, rfl⟩ := eq_of_write_ok h
    exact ⟨rfl, rfl, rfl⟩

/-- Chunks that are not empty take something of every offer. -/
theorem length_portion_pos {device : Bounded} {bytes : Bytes} (positive : device.chunk ≠ some 0)
    (nonempty : bytes ≠ []) : 0 < (device.portion bytes).length := by
  have length_pos := List.length_pos_iff.mpr nonempty
  rw [portion]
  split
  · exact length_pos
  · next n chunk =>
    have n_pos : n ≠ 0 := by
      rintro rfl
      exact positive chunk
    rw [List.length_take]
    omega

theorem portion_of_whole {device : Bounded} (h : device.chunk = none) (bytes : Bytes) :
    device.portion bytes = bytes := by
  rw [portion, h]

/-! ### One piece -/

theorem hasRoom_of_le {device : Bounded} {m n : Nat} (h : m ≤ n)
    (room : device.hasRoom n = true) : device.hasRoom m = true := by
  rw [hasRoom_iff] at *
  intro limit mem
  have := room limit mem
  omega

/-- What is left of the room once `piece` has been taken. -/
theorem hasRoom_append (device : Bounded) (piece : Bytes) (n : Nat) :
    ({ device with log := device.log.append piece } : Bounded).hasRoom n
      = device.hasRoom (piece.length + n) := by
  rw [hasRoom, hasRoom, ByteLog.append, Nat.add_assoc]

theorem writeAll_of_room {device : Bounded} {bytes : Bytes} (positive : device.chunk ≠ some 0)
    (room : device.hasRoom bytes.length = true) :
    ∃ after, Device.writeAll device bytes = (.ok (), after) ∧ Alike device after := by
  -- each call takes one portion off the bytes and the same number off the room
  fun_induction Device.writeAll device bytes with
  | case1 device => exact ⟨device, rfl, .refl device⟩
  | case2 device bytes nonempty fault next eq =>
    have full := (eq_of_write_error eq).1
    rw [hasRoom_of_le (length_portion_le device bytes) room] at full
    cases full
  | case3 device bytes nonempty next eq =>
    have none_taken := (eq_of_write_ok eq).2.1
    have := length_portion_pos positive nonempty
    omega
  | case4 device bytes nonempty n next eq ih =>
    obtain ⟨-, taken_eq, rfl⟩ := eq_of_write_ok eq
    have portion_le := length_portion_le device bytes
    obtain ⟨after, written, alike⟩ := ih positive (by
      rw [hasRoom_append, List.length_drop, ← Nat.succ_eq_add_one, taken_eq]
      rwa [Nat.add_sub_cancel' portion_le])
    exact ⟨after, written, alike.limit_eq, alike.chunk_eq, alike.failsFlush_eq⟩

theorem writeAll_of_full {device : Bounded} {bytes : Bytes} (positive : device.chunk ≠ some 0)
    (within : device.hasRoom 0 = true) (full : device.hasRoom bytes.length = false) :
    ∃ after, Device.writeAll device bytes = (.error diskFull, after) ∧
      (device.chunk = none → after = device) := by
  fun_induction Device.writeAll device bytes with
  | case1 device =>
    rw [List.length_nil, within] at full
    cases full
  | case2 device bytes nonempty fault next eq =>
    obtain ⟨-, rfl, rfl⟩ := eq_of_write_error eq
    exact ⟨_, rfl, fun _ => rfl⟩
  | case3 device bytes nonempty next eq =>
    have none_taken := (eq_of_write_ok eq).2.1
    have := length_portion_pos positive nonempty
    omega
  | case4 device bytes nonempty n next eq ih =>
    obtain ⟨room, taken_eq, rfl⟩ := eq_of_write_ok eq
    have portion_le := length_portion_le device bytes
    obtain ⟨after, written, -⟩ := ih positive (by rwa [hasRoom_append]) (by
      rw [hasRoom_append, List.length_drop, ← Nat.succ_eq_add_one, taken_eq]
      rwa [Nat.add_sub_cancel' portion_le])
    refine ⟨after, written, fun whole => ?_⟩
    -- a device without chunks would have taken all of it, for which there is no room
    rw [portion_of_whole whole, full] at room
    cases room

/-- Empty chunks take nothing of a piece, so `writeAll` gives up. -/
theorem writeAll_of_emptyChunk {device : Bounded} {bytes : Bytes} (empty : device.chunk = some 0)
    (within : device.hasRoom 0 = true) (nonempty : bytes ≠ []) :
    ∃ after, Device.writeAll device bytes = (.error .writeZero, after) ∧
      Device.contents after = Device.contents device := by
  have portion_eq : device.portion bytes = [] := by
    rw [portion, empty]
    rfl
  have written : Device.write device bytes = _ := write_of_room (by rwa [portion_eq])
  rw [portion_eq] at written
  rw [Device.writeAll, dif_neg nonempty, written]
  exact ⟨_, rfl, by simp [Device.contents, contents]⟩

/-! ### Several pieces -/

/-- The room behind a piece that has been written. -/
theorem hasRoom_of_writeAll {device after : Bounded} {piece : Bytes}
    (written : Device.writeAll device piece = (.ok (), after)) (alike : Alike device after)
    (n : Nat) : after.hasRoom n = device.hasRoom (piece.length + n) := by
  have size_eq : after.log.size = device.log.size + piece.length := by
    rw [ByteLog.size_eq, ByteLog.size_eq, ← List.length_append]
    exact congrArg List.length (contents_writeAll_ok written)
  rw [hasRoom, hasRoom, alike.limit_eq, size_eq, Nat.add_assoc]

theorem writeEach_of_room {device : Bounded} {pieces : List Bytes}
    (positive : device.chunk ≠ some 0) (room : device.hasRoom pieces.flatten.length = true) :
    ∃ after, writeEach device pieces = (.ok (), after) ∧ Alike device after := by
  induction pieces generalizing device with
  | nil => exact ⟨device, rfl, .refl device⟩
  | cons piece rest ih =>
    rw [List.flatten_cons, List.length_append] at room
    obtain ⟨middle, written, alike⟩ :=
      writeAll_of_room positive (hasRoom_of_le (Nat.le_add_right _ _) room)
    obtain ⟨after, others, alike'⟩ := ih (by rwa [alike.chunk_eq])
      (by rwa [hasRoom_of_writeAll written alike])
    exact ⟨after, writeEach_cons_eq_ok_iff.mpr ⟨middle, written, others⟩, alike.trans alike'⟩

theorem writeEach_of_full {device : Bounded} {pieces : List Bytes}
    (positive : device.chunk ≠ some 0) (within : device.hasRoom 0 = true)
    (full : device.hasRoom pieces.flatten.length = false) :
    ∃ after, writeEach device pieces = (.error diskFull, after) ∧
      (device.chunk = none → ∃ whole piece rest, pieces = whole ++ piece :: rest ∧
        Device.contents after = Device.contents device ++ whole.flatten ∧
        device.hasRoom whole.flatten.length = true ∧
        device.hasRoom (whole.flatten.length + piece.length) = false) := by
  induction pieces generalizing device with
  | nil =>
    rw [List.flatten_nil, List.length_nil, within] at full
    cases full
  | cons piece rest ih =>
    rw [List.flatten_cons, List.length_append] at full
    -- either the first piece is the one that does not fit, or it is one of the others
    cases fits : device.hasRoom piece.length with
    | false =>
      obtain ⟨after, torn, same⟩ := writeAll_of_full positive within fits
      refine ⟨after, writeEach_cons_eq_error_iff.mpr (.inl torn), fun whole => ?_⟩
      rw [same whole]
      exact ⟨[], piece, rest, rfl, (List.append_nil _).symm, within, by simpa using fits⟩
    | true =>
      obtain ⟨middle, written, alike⟩ := writeAll_of_room positive fits
      have room_eq := hasRoom_of_writeAll written alike
      obtain ⟨after, torn, most⟩ := ih (by rwa [alike.chunk_eq]) (by rwa [room_eq])
        (by rwa [room_eq])
      refine ⟨after, writeEach_cons_eq_error_iff.mpr (.inr ⟨middle, written, torn⟩),
        fun whole => ?_⟩
      obtain ⟨front, next, rest', split, held, room, beyond⟩ := most (by rwa [alike.chunk_eq])
      refine ⟨piece :: front, next, rest', by rw [split]; rfl, ?_, ?_, ?_⟩
      · rw [held, contents_writeAll_ok written, List.flatten_cons, List.append_assoc]
      · rwa [room_eq, ← List.length_append, ← List.flatten_cons] at room
      · rwa [room_eq, ← Nat.add_assoc, ← List.length_append, ← List.flatten_cons] at beyond

theorem writeEach_of_emptyChunk {device : Bounded} {piece : Bytes} {rest : List Bytes}
    (empty : device.chunk = some 0) (within : device.hasRoom 0 = true) (nonempty : piece ≠ []) :
    ∃ after, writeEach device (piece :: rest) = (.error .writeZero, after) ∧
      Device.contents after = Device.contents device := by
  obtain ⟨after, torn, held⟩ := writeAll_of_emptyChunk empty within nonempty
  exact ⟨after, writeEach_cons_eq_error_iff.mpr (.inl torn), held⟩

/-! ### Devices without a limit -/

theorem Alike.of_reaches {device later : Bounded} (h : Reaches device later) :
    Alike device later := by
  induction h with
  | refl => exact .refl device
  | write bytes _ ih => exact ih.trans (alike_write _ bytes)

/-- A device without a `limit` takes everything, in chunks of any size but zero. -/
theorem accepting_of_unlimited {device : Bounded} (unlimited : device.limit = none)
    (positive : device.chunk ≠ some 0) (flushes : device.failsFlush = false) :
    Accepting device where
  -- writes leave the limits as they are, so they hold of every later state
  takes := by
    intro later reached bytes nonempty
    have alike := Alike.of_reaches reached
    have room : later.hasRoom (later.portion bytes).length = true := by
      rw [hasRoom, alike.limit_eq, unlimited]
    rw [write_of_room room]
    exact length_portion_pos (by rwa [alike.chunk_eq]) nonempty
  flushes := by
    intro later reached
    have alike := Alike.of_reaches reached
    show (Bounded.flush later).1 = .ok ()
    rw [Bounded.flush, alike.failsFlush_eq, flushes]
    rfl

theorem accepting_memory : Accepting memory := accepting_of_unlimited rfl (by decide) rfl

end SwapCapture.Bounded
