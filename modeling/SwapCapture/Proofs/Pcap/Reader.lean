/-
Reading a capture file from its bytes alone.

`Pcap.read?` knows nothing of the writer: it takes the file header, then record after record, each
as long as its own header says, until the bytes are exactly exhausted.  It refuses a file that ends
within a record.

* `read?_image` — the file of some frames is read as these frames, each with its length and time;
* `read?_writeAll` — and so is whatever a capture has left on a device that takes everything.
-/
import SwapCapture.Proofs.Bytes.Reading
import SwapCapture.Proofs.Device.Room
import SwapCapture.Proofs.Pcap.Writing

namespace SwapCapture.Pcap

open Bytes Device

/-- A record as it is read.  Of its two lengths `included` counts the bytes that the file holds, and
`full` those that the frame had when it was captured. -/
structure StoredFrame where
  time : Timestamp
  included : UInt32
  full : UInt32
  frame : Bytes
deriving DecidableEq, Repr

structure Capture where
  header : Bytes
  records : List StoredFrame
deriving DecidableEq, Repr

/-- The records that `bytes` consist of, with nothing left over. -/
def readRecords? (bytes : Bytes) : Option (List StoredFrame) :=
  if bytes = [] then some []
  else
    match _ : cut? 16 bytes with
    | none => none
    | some (header, rest) =>
      match _ : cut? (le32At header 8).toNat rest with
      | none => none
      | some (frame, rest) =>
        let record : StoredFrame :=
          ⟨⟨le32At header 0, le32At header 4⟩, le32At header 8, le32At header 12, frame⟩
        (readRecords? rest).map (record :: ·)
termination_by bytes.length
decreasing_by
  -- each record takes sixteen bytes at least
  have := length_of_cut? ‹cut? 16 bytes = some _›
  have := length_of_cut? ‹cut? _ _ = some (frame, rest)›
  omega

/-- The capture that `bytes` are the file of. -/
def read? (bytes : Bytes) : Option Capture := do
  let (header, rest) ← cut? 24 bytes
  let records ← readRecords? rest
  pure ⟨header, records⟩

/-! ### Reading an image -/

/-- The record of `frame`, if it is at `index` in its file. -/
def storedAt (base : UInt32) (index : Nat) (frame : Bytes) : StoredFrame :=
  ⟨.nth base index, .ofNat frame.length, .ofNat frame.length, frame⟩

/-- The records of some frames, the first of which is at `index`. -/
def storedFrom (base : UInt32) : Nat → List Bytes → List StoredFrame
  | _, [] => []
  | index, frame :: rest => storedAt base index frame :: storedFrom base (index + 1) rest

theorem getElem?_storedFrom (base : UInt32) (index : Nat) (frames : List Bytes) (i : Nat) :
    (storedFrom base index frames)[i]? = frames[i]?.map (storedAt base (index + i)) := by
  induction frames generalizing index i with
  | nil => rfl
  | cons frame rest ih =>
    cases i with
    | zero => rfl
    | succ i =>
      rw [storedFrom, List.getElem?_cons_succ, List.getElem?_cons_succ, ih, Nat.add_assoc,
        Nat.add_comm 1]

@[simp] theorem length_storedFrom (base : UInt32) (index : Nat) (frames : List Bytes) :
    (storedFrom base index frames).length = frames.length := by
  induction frames generalizing index with
  | nil => rfl
  | cons frame rest ih => rw [storedFrom, List.length_cons, List.length_cons, ih]

theorem map_frame_storedFrom (base : UInt32) (index : Nat) (frames : List Bytes) :
    (storedFrom base index frames).map StoredFrame.frame = frames := by
  induction frames generalizing index with
  | nil => rfl
  | cons frame rest ih =>
    rw [storedFrom, List.map_cons, ih]
    rfl

/-- What a record header says is what it was made of. -/
theorem fields_headerAt (base : UInt32) (index : Nat) (frame : Bytes) :
    le32At (headerAt base index frame) 0 = (Timestamp.nth base index).seconds ∧
    le32At (headerAt base index frame) 4 = (Timestamp.nth base index).micros ∧
    le32At (headerAt base index frame) 8 = .ofNat frame.length ∧
    le32At (headerAt base index frame) 12 = .ofNat frame.length :=
  ⟨le32At_of_take rfl, le32At_of_take rfl, le32At_of_take rfl, le32At_of_take rfl⟩

theorem readRecords?_record (base : UInt32) (index : Nat) {frame : Bytes} (rest : Bytes)
    (short : frame.length < 2 ^ 32) :
    readRecords? (headerAt base index frame ++ (frame ++ rest))
      = (readRecords? rest).map (storedAt base index frame :: ·) := by
  obtain ⟨seconds, micros, included, full⟩ := fields_headerAt base index frame
  have length_eq : (UInt32.ofNat frame.length).toNat = frame.length :=
    UInt32.toNat_ofNat_of_lt' short
  have nonempty : headerAt base index frame ++ (frame ++ rest) ≠ [] :=
    List.append_ne_nil_of_left_ne_nil (by rw [headerAt]; exact List.cons_ne_nil _ _) _
  -- the length in the header is all that the reader knows of the frame behind it
  rw [readRecords?, if_neg nonempty, cut?_append (length_headerAt base index frame)]
  simp only
  rw [included, length_eq, cut?_append rfl]
  simp only [seconds, micros, full]
  rfl

theorem readRecords?_piecesFrom (base : UInt32) (index : Nat) {frames : List Bytes}
    (short : ∀ frame ∈ frames, frame.length < 2 ^ 32) :
    readRecords? (piecesFrom base index frames).flatten = some (storedFrom base index frames) := by
  induction frames generalizing index with
  | nil =>
    rw [readRecords?]
    rfl
  | cons frame rest ih =>
    rw [piecesFrom, List.flatten_cons, List.flatten_cons,
      readRecords?_record base index _ (short frame List.mem_cons_self),
      ih (index + 1) fun f mem => short f (List.mem_cons_of_mem _ mem)]
    rfl

/-- `read?` finds the frames that a file is the `image` of. -/
theorem read?_image (base : UInt32) {frames : List Bytes}
    (short : ∀ frame ∈ frames, frame.length < 2 ^ 32) :
    read? (image base frames) = some ⟨fileHeader, storedFrom base 0 frames⟩ := by
  have header_length : fileHeader.length = 24 := rfl
  rw [read?, image, filePieces, List.flatten_cons, cut?_append header_length]
  show (readRecords? (piecesFrom base 0 frames).flatten).bind _ = _
  rw [readRecords?_piecesFrom base 0 short]
  rfl

/-- The time of the last record is the time that the totals report. -/
theorem time_getLast?_storedFrom (base : UInt32) (frames : List Bytes) :
    (storedFrom base 0 frames).getLast?.map StoredFrame.time = lastTime base frames.length := by
  rw [List.getLast?_eq_getElem?, length_storedFrom, getElem?_storedFrom, Nat.zero_add]
  rcases frames with _ | ⟨frame, rest⟩
  · rfl
  · rw [List.length_cons, Nat.add_sub_cancel, List.getElem?_eq_getElem (by simp)]
    rfl

/-- **What a capture writes is read back.** On a device that is `Accepting`, in portions of whatever
size, `writeAll` leaves a file that `read?` finds exactly its frames in, each with its full length
and the time of its index, and the totals are those of the file. -/
theorem read?_writeAll {δ : Type} [Device δ] {device : δ} {base : UInt32} {frames : List Bytes}
    (accepting : Accepting device) (empty : contents device = [])
    (short : ∀ frame ∈ frames, frame.length < 2 ^ 32)
    (room : frames.length ≤ (2 ^ 32 - base.toNat) * 1000)
    (small : 24 + (frames.map fun frame => 16 + frame.length).sum < 2 ^ 64) :
    ∃ result after records, writeAll device base frames = (.ok result, after) ∧
      read? (contents after) = some ⟨fileHeader, records⟩ ∧
      records.map StoredFrame.frame = frames ∧
      (∀ i record, records[i]? = some record →
        record.included.toNat = record.frame.length ∧ record.full = record.included ∧
        Timestamp.at? base (.ofNat i) = some record.time) ∧
      result.frames.toNat = frames.length ∧
      result.bytes.toNat = (contents after).length ∧
      (contents after).length = 24 + (frames.map fun frame => 16 + frame.length).sum ∧
      result.crc = Crc32.of (contents after) ∧
      result.lastTime = records.getLast?.map StoredFrame.time := by
  obtain ⟨after, written⟩ := writeAll_of_accepting accepting short room
  -- the file is the image of the frames, and that is read back
  obtain ⟨-, -, held⟩ := eq_totals_of_writeAll short written
  rw [empty, List.nil_append] at held
  refine ⟨totals base frames, after, storedFrom base 0 frames, written, ?_, ?_, ?_, ?_, ?_, ?_, ?_,
    ?_⟩
  · rw [held]
    exact read?_image base short
  · exact map_frame_storedFrom base 0 frames
  · intro i record found
    rw [getElem?_storedFrom, Option.map_eq_some_iff] at found
    obtain ⟨frame, at_i, rfl⟩ := found
    have i_lt : i < frames.length := (List.getElem?_eq_some_iff.mp at_i).1
    refine ⟨?_, rfl, ?_⟩
    · exact UInt32.toNat_ofNat_of_lt' (short frame (List.mem_of_getElem? at_i))
    · rw [Timestamp.at?_of_lt_room (Nat.lt_of_lt_of_le i_lt room), Nat.zero_add]
      rfl
  · exact UInt64.toNat_ofNat_of_lt' (Nat.lt_of_le_of_lt room (Timestamp.room_lt base))
  · rw [held]
    exact UInt64.toNat_ofNat_of_lt' (by rw [length_image]; exact small)
  · rw [held]
    exact length_image base frames
  · rw [held]
    rfl
  · exact (time_getLast?_storedFrom base frames).symm

/-- Three frames in the last second of the clock, one of them empty and one that looks like a file
header, on a device that takes five bytes at a time. -/
theorem read?_writeAll_chunked :
    ∃ result after records,
      writeAll (Bounded.withLimits none (some 5) false) 0xFFFFFFFF [[], fileHeader, [1, 2, 3]]
        = (.ok result, after) ∧
      read? (contents after) = some ⟨fileHeader, records⟩ ∧
      records.map StoredFrame.frame = [[], fileHeader, [1, 2, 3]] ∧ result.frames.toNat = 3 := by
  have accepting : Accepting (Bounded.withLimits none (some 5) false) :=
    Bounded.accepting_of_unlimited rfl (by decide) rfl
  have room : [[], fileHeader, [1, 2, 3]].length ≤ (2 ^ 32 - (0xFFFFFFFF : UInt32).toNat) * 1000 := by
    decide
  obtain ⟨result, after, records, written, read, frames_eq, -, count, -⟩ :=
    read?_writeAll accepting rfl (by decide) room (by decide)
  exact ⟨result, after, records, written, read, frames_eq, count⟩

end SwapCapture.Pcap
