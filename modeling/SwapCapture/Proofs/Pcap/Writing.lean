/-
Writing a capture is writing its pieces.

A writer that has put some frames knows exactly what it has written (`Writer.Holds`).  One step
keeps this (`append_of_written`), or fails and leaves what the device has taken
(`append_of_fault`), or finds the clock at its end (`append_of_full`).  A whole capture is then
described without a writer at all:

* `deliver` — the pieces of as many frames as the clock has room for, then the totals;
* `writeAll_eq_deliver` — this is what writing a capture does, on any device;
* `eq_totals_of_writeAll` — a capture that went well is the image of its frames;
* `writeAll_of_accepting` — on a device that takes everything it goes well as long as the clock
  has room.
-/
import SwapCapture.Proofs.Device.Pieces
import SwapCapture.Proofs.Pcap.Image

namespace SwapCapture.Pcap

open Device

variable {δ : Type} [Device δ]

namespace Writer

/-! ### One piece -/

theorem writePiece_ok {w : Writer δ} {piece : Bytes} {after : δ}
    (h : Device.writeAll w.device piece = (.ok (), after)) :
    w.writePiece piece = (.ok (), { w with
      device := after
      bytes := w.bytes + .ofNat piece.length
      crc := w.crc.update piece }) := by
  rw [writePiece, h]

theorem writePiece_error {w : Writer δ} {piece : Bytes} {after : δ} {fault : DeviceFault}
    (h : Device.writeAll w.device piece = (.error fault, after)) :
    w.writePiece piece = (.error fault, { w with device := after }) := by
  rw [writePiece, h]

/-! ### One frame -/

/-- The writer has put the file of `frames`, and its counters are those of that file. -/
structure Holds (w : Writer δ) (base : UInt32) (frames : List Bytes) : Prop where
  base_eq : w.base = base
  frames_eq : w.frames = .ofNat frames.length
  bytes_eq : w.bytes = .ofNat (image base frames).length
  crc_eq : w.crc = Crc32.start.update (image base frames)
  lastTime_eq : w.lastTime = Pcap.lastTime base frames.length

/-- A frame is accepted as long as the clock has `room` and its length fits. -/
theorem accept_of_room {δ : Type} {w : Writer δ} {base : UInt32} {done : List Bytes}
    {frame : Bytes} (holds : w.Holds base done) (room : done.length < Timestamp.room base)
    (short : frame.length < 2 ^ 32) :
    w.accept frame.length = .ok (.nth base done.length, .ofNat frame.length) := by
  rw [accept, holds.base_eq, holds.frames_eq, Timestamp.at?_of_lt_room room]
  exact if_pos short

variable {w : Writer δ} {base : UInt32} {done : List Bytes} {frame : Bytes} {after : δ}
  {fault : DeviceFault}

/-- One frame whose two pieces are written. -/
theorem append_of_written (holds : w.Holds base done) (room : done.length < Timestamp.room base)
    (short : frame.length < 2 ^ 32)
    (h : writeEach w.device [headerAt base done.length frame, frame] = (.ok (), after)) :
    ∃ w', w.append frame = (.ok (.nth base done.length), w') ∧ w'.device = after ∧
      w'.Holds base (done ++ [frame]) := by
  obtain ⟨middle, first, h⟩ := writeEach_cons_eq_ok_iff.mp h
  obtain ⟨last, second, h⟩ := writeEach_cons_eq_ok_iff.mp h
  cases h
  rw [headerAt] at first
  -- the image of one frame more ends in its header and the frame
  have grown : image base (done ++ [frame])
      = image base done ++ headerAt base done.length frame ++ frame := by
    rw [image_append]
    simp [piecesFrom]
  rw [append, accept_of_room holds room short]
  simp only [putRecord]
  rw [writePiece_ok first]
  simp only
  rw [writePiece_ok second]
  refine ⟨_, rfl, rfl, holds.base_eq, ?_, ?_, ?_, ?_⟩
  · rw [holds.frames_eq, List.length_append, UInt64.ofNat_add]
    rfl
  · rw [holds.bytes_eq, grown, List.length_append, List.length_append, UInt64.ofNat_add,
      UInt64.ofNat_add]
    rfl
  · rw [holds.crc_eq, grown, Crc32.update_append, Crc32.update_append]
    rfl
  · rw [List.length_append]
    rfl

/-- One frame of whose two pieces one fails. -/
theorem append_of_fault (holds : w.Holds base done) (room : done.length < Timestamp.room base)
    (short : frame.length < 2 ^ 32)
    (h : writeEach w.device [headerAt base done.length frame, frame] = (.error fault, after)) :
    ∃ w', w.append frame = (.error (.device fault), w') ∧ w'.device = after := by
  rw [headerAt] at h
  rw [append, accept_of_room holds room short]
  simp only [putRecord]
  -- either of the two pieces may be the one that fails
  rcases writeEach_cons_eq_error_iff.mp h with torn | ⟨middle, first, h⟩
  · rw [writePiece_error torn]
    exact ⟨_, rfl, rfl⟩
  rw [writePiece_ok first]
  simp only
  rcases writeEach_cons_eq_error_iff.mp h with torn | ⟨last, second, h⟩
  · rw [writePiece_error torn]
    exact ⟨_, rfl, rfl⟩
  · cases h

/-- One frame more than the clock has `room` for. -/
theorem append_of_full (holds : w.Holds base done) (full : done.length = Timestamp.room base) :
    w.append frame = (.error (.timestampOverflow (.ofNat (Timestamp.room base))), w) := by
  rw [append, accept, holds.base_eq, holds.frames_eq, full,
    Timestamp.at?_of_room_le (Nat.le_refl _) (Timestamp.room_lt base)]

/-! ### Many frames -/

/-- Frames that the clock has `room` for are appended as far as their pieces are written. -/
theorem appendAll_of_writeEach {frames : List Bytes} {result : Except DeviceFault Unit}
    (holds : w.Holds base done) (room : done.length + frames.length ≤ Timestamp.room base)
    (short : ∀ frame ∈ frames, frame.length < 2 ^ 32)
    (h : writeEach w.device (piecesFrom base done.length frames) = (result, after)) :
    ∃ w', w.appendAll frames = (result.mapError .device, w') ∧ w'.device = after ∧
      (result = .ok () → w'.Holds base (done ++ frames)) := by
  induction frames generalizing w done with
  | nil =>
    cases h
    exact ⟨w, rfl, rfl, fun _ => by rwa [List.append_nil]⟩
  | cons frame rest ih =>
    rw [List.length_cons] at room
    have fits := short frame List.mem_cons_self
    rcases first : writeEach w.device [headerAt base done.length frame, frame]
      with ⟨torn | _, middle⟩
    · -- the frame itself fails, and so do its pieces with others behind them
      have pieces := writeEach_append_error (piecesFrom base (done.length + 1) rest) first
      obtain ⟨rfl, rfl⟩ : .error torn = result ∧ middle = after := by
        simpa using pieces.symm.trans h
      obtain ⟨w', appended, device_eq⟩ := append_of_fault holds (by omega) fits first
      exact ⟨w', by rw [appendAll, appended]; rfl, device_eq, fun ok => by cases ok⟩
    · obtain ⟨w', appended, device_eq, holds'⟩ := append_of_written holds (by omega) fits first
      have length_eq : (done ++ [frame]).length = done.length + 1 := by simp
      have others := writeEach_append_ok (piecesFrom base (done.length + 1) rest) first
      obtain ⟨w'', appended', device_eq', holds''⟩ :=
        ih holds' (by omega) (fun f mem => short f (List.mem_cons_of_mem _ mem))
          (by rw [device_eq, length_eq]; exact others.symm.trans h)
      refine ⟨w'', by rw [appendAll, appended]; exact appended', device_eq', fun ok => ?_⟩
      have all := holds'' ok
      rwa [List.append_assoc] at all

theorem appendAll_append {w' : Writer δ} {front : List Bytes} (rest : List Bytes)
    (h : w.appendAll front = (.ok (), w')) : w.appendAll (front ++ rest) = w'.appendAll rest := by
  induction front generalizing w with
  | nil =>
    cases h
    rfl
  | cons frame front ih =>
    rw [appendAll] at h
    rw [List.cons_append, appendAll]
    rcases appended : w.append frame with ⟨_ | _, next⟩
    · rw [appended] at h
      cases h
    · rw [appended] at h
      exact ih h

theorem appendAll_append_error {w' : Writer δ} {front : List Bytes} {e : Fault}
    (rest : List Bytes) (h : w.appendAll front = (.error e, w')) :
    w.appendAll (front ++ rest) = (.error e, w') := by
  induction front generalizing w with
  | nil => cases h
  | cons frame front ih =>
    rw [appendAll] at h
    rw [List.cons_append, appendAll]
    rcases appended : w.append frame with ⟨_ | _, next⟩
    · rw [appended] at h
      exact h
    · rw [appended] at h
      exact ih h

/-! ### Opening -/

/-- A writer that has put `fileHeader`. -/
theorem create_of_written {device : δ} (base : UInt32)
    (h : Device.writeAll device fileHeader = (.ok (), after)) :
    ∃ w, create device base = (.ok w, after) ∧ w.device = after ∧ w.Holds base [] := by
  rw [create, writePiece_ok (w := blank device base) h]
  exact ⟨_, rfl, rfl, rfl, rfl, by simp [blank, image, filePieces, piecesFrom], rfl, rfl⟩

theorem create_of_fault {device : δ} (base : UInt32)
    (h : Device.writeAll device fileHeader = (.error fault, after)) :
    create device base = (.error (.device fault), after) := by
  rw [create, writePiece_error (w := blank device base) h]

end Writer

/-! ### A whole capture -/

/-- The capture of `frames` without a writer: the pieces of as many frames as the clock has `room`
for, and the totals if that was all of them. -/
def deliver (device : δ) (base : UInt32) (frames : List Bytes) : Except Fault Totals × δ :=
  let kept := frames.take (Timestamp.room base)
  match writeEach device (filePieces base kept) with
  | (.error fault, device) => (.error (.device fault), device)
  | (.ok (), device) =>
    if Timestamp.room base < frames.length then
      (.error (.timestampOverflow (.ofNat (Timestamp.room base))), device)
    else
      match flush device with
      | (.error fault, device) => (.error (.device fault), device)
      | (.ok (), device) => (.ok (totals base frames), device)

section Front

variable {device after : δ} {base : UInt32} {kept : List Bytes}

/-- A capture whose front cannot be written ends there, whatever frames come behind. -/
theorem writeAll_append_of_fault {fault : DeviceFault} (rest : List Bytes)
    (short : ∀ frame ∈ kept, frame.length < 2 ^ 32) (room : kept.length ≤ Timestamp.room base)
    (h : writeEach device (filePieces base kept) = (.error fault, after)) :
    writeAll device base (kept ++ rest) = (.error (.device fault), after) := by
  rw [writeAll]
  rcases writeEach_cons_eq_error_iff.mp h with torn | ⟨first, opened, h⟩
  · rw [Writer.create_of_fault base torn]
  obtain ⟨w, created, rfl, holds⟩ := Writer.create_of_written base opened
  obtain ⟨w', appended, rfl, -⟩ :=
    Writer.appendAll_of_writeEach holds (by simpa using room) short h
  rw [created]
  simp only [Writer.appendAll_append_error rest appended]

/-- A capture whose front is written goes on with the frames behind it. -/
theorem writeAll_append_of_written (rest : List Bytes)
    (short : ∀ frame ∈ kept, frame.length < 2 ^ 32) (room : kept.length ≤ Timestamp.room base)
    (h : writeEach device (filePieces base kept) = (.ok (), after)) :
    ∃ w : Writer δ, w.device = after ∧ w.Holds base kept ∧
      writeAll device base (kept ++ rest)
        = match w.appendAll rest with
          | (.error fault, w) => (.error fault, w.device)
          | (.ok (), w) => w.close := by
  obtain ⟨first, opened, h⟩ := writeEach_cons_eq_ok_iff.mp h
  obtain ⟨w, created, rfl, holds⟩ := Writer.create_of_written base opened
  obtain ⟨w', appended, rfl, holds'⟩ :=
    Writer.appendAll_of_writeEach holds (by simpa using room) short h
  refine ⟨w', rfl, holds' rfl, ?_⟩
  have goes_on := Writer.appendAll_append rest appended
  rw [writeAll, created]
  rcases others : w'.appendAll rest with ⟨fault | _, last⟩
  · simp only [goes_on, others]
  · simp only [goes_on, others]

end Front

/-- Closing a writer flushes its device and reports the file that it holds. -/
theorem Writer.close_of_holds {w : Writer δ} {base : UInt32} {frames : List Bytes}
    (holds : w.Holds base frames) :
    w.close
      = match flush w.device with
        | (.error fault, device) => (.error (.device fault), device)
        | (.ok (), device) => (.ok (totals base frames), device) := by
  rw [close, totals, holds.frames_eq, holds.bytes_eq, holds.crc_eq, holds.lastTime_eq]
  rfl

/-- **Writing a capture is writing its pieces**, on any device, so `writeAll` is `deliver`. -/
theorem writeAll_eq_deliver (device : δ) (base : UInt32) {frames : List Bytes}
    (short : ∀ frame ∈ frames, frame.length < 2 ^ 32) :
    writeAll device base frames = deliver device base frames := by
  -- the frames that the clock has room for, and the ones behind them
  obtain ⟨kept, surplus, split, kept_eq⟩ :
      ∃ kept surplus, frames = kept ++ surplus ∧ frames.take (Timestamp.room base) = kept :=
    ⟨_, _, (List.take_append_drop _ _).symm, rfl⟩
  have kept_le : kept.length ≤ Timestamp.room base := by
    rw [← kept_eq]
    exact List.length_take_le _ _
  have kept_short : ∀ frame ∈ kept, frame.length < 2 ^ 32 := by
    intro frame mem
    exact short frame (by rw [split]; exact List.mem_append_left _ mem)
  rw [deliver, kept_eq]
  rcases written : writeEach device (filePieces base kept) with ⟨fault | _, after⟩
  · rw [split, writeAll_append_of_fault surplus kept_short kept_le written]
  obtain ⟨w, rfl, holds, goes_on⟩ :=
    writeAll_append_of_written surplus kept_short kept_le written
  rw [split, goes_on]
  rcases surplus with _ | ⟨frame, surplus⟩
  · -- nothing is left behind the kept frames
    simp only [Writer.appendAll, List.append_nil, if_neg (Nat.not_lt.mpr kept_le)]
    exact Writer.close_of_holds holds
  · have full : kept.length = Timestamp.room base := by
      have := congrArg List.length kept_eq
      rw [split, List.length_take, List.length_append, List.length_cons] at this
      omega
    have over_room : Timestamp.room base < (kept ++ frame :: surplus).length := by
      rw [List.length_append, List.length_cons]
      omega
    simp only [if_pos over_room, Writer.appendAll, Writer.append_of_full holds full]

/-- A capture that went well is the `image` of its frames, and its totals are those of the image. -/
theorem eq_totals_of_writeAll {device after : δ} {base : UInt32} {frames : List Bytes}
    {result : Totals} (short : ∀ frame ∈ frames, frame.length < 2 ^ 32)
    (h : writeAll device base frames = (.ok result, after)) :
    frames.length ≤ Timestamp.room base ∧ result = totals base frames ∧
      contents after = contents device ++ image base frames := by
  rw [writeAll_eq_deliver device base short, deliver] at h
  rcases written : writeEach device (filePieces base (frames.take (Timestamp.room base)))
    with ⟨_ | _, last⟩
  · simp [written] at h
  simp only [written] at h
  -- neither the device nor the clock has stopped the capture, since it went well
  by_cases beyond : Timestamp.room base < frames.length
  · simp [if_pos beyond] at h
  rw [if_neg beyond] at h
  rcases flushed : flush last with ⟨_ | _, stored⟩
  · simp [flushed] at h
  simp only [flushed] at h
  cases h
  have within : frames.length ≤ Timestamp.room base := by omega
  have stored_eq : contents after = contents last := by
    rw [← contents_flush last, flushed]
  refine ⟨within, rfl, ?_⟩
  rw [stored_eq, contents_writeEach_ok written, List.take_of_length_le within, image]

/-- On a device that is `Accepting` a capture goes well as long as the clock has `room`. -/
theorem writeAll_of_accepting {device : δ} {base : UInt32} {frames : List Bytes}
    (accepting : Accepting device) (short : ∀ frame ∈ frames, frame.length < 2 ^ 32)
    (room : frames.length ≤ Timestamp.room base) :
    ∃ after, writeAll device base frames = (.ok (totals base frames), after) := by
  rw [writeAll_eq_deliver device base short, deliver, List.take_of_length_le room]
  obtain ⟨last, written, still⟩ := writeEach_of_accepting accepting (filePieces base frames)
  have flushed := still.flushes .refl
  simp only [written, if_neg (Nat.not_lt.mpr room)]
  rcases stored : flush last with ⟨result, after⟩
  rw [stored] at flushed
  cases flushed
  exact ⟨after, rfl⟩

end SwapCapture.Pcap
