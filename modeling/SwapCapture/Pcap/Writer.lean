/-
Writing a capture file to a device, frame by frame.

A `Pcap.Writer` counts what has been written whole and keeps the checksum of it.  Whether a frame
is accepted at all is settled before anything is written, so a frame that is refused leaves the
writer as it was; a device that fails may be left with a part of a piece.

* `Pcap.Writer.create` — a writer that has put the file header;
* `Pcap.Writer.append` — one more record, at the next time;
* `Pcap.Writer.close` — everything flushed, and the totals;
* `Pcap.Writer.appendZeros_eq` — offering zeros by their number alone is offering them in full.
-/
import SwapCapture.Bytes.Crc32
import SwapCapture.Device.Basic
import SwapCapture.Pcap.Header

namespace SwapCapture.Pcap

inductive Fault where
  | device (fault : DeviceFault)
  | timestampOverflow (index : UInt64)
  | frameTooLarge (index : UInt64) (length : Nat)
deriving DecidableEq, Repr

def Fault.message : Fault → String
  | .device fault => s!"capture I/O failed: {fault.message}"
  | .timestampOverflow index =>
    s!"timestamp for frame {index.toNat} does not fit in 32-bit seconds"
  | .frameTooLarge index length =>
    s!"frame {index.toNat} is {length} bytes, too large for a record header"

/-- What a finished capture amounts to.  The file header counts in `bytes` and `crc`, not in
`frames`. -/
structure Totals where
  frames : UInt64
  bytes : UInt64
  crc : UInt32
  lastTime : Option Timestamp
deriving DecidableEq, Repr

/-- A capture in the course of being written to `device`. -/
structure Writer (δ : Type) where
  device : δ
  base : UInt32
  frames : UInt64
  bytes : UInt64
  crc : Crc32
  lastTime : Option Timestamp

namespace Writer

variable {δ : Type} [Device δ]

/-- Writes a piece, which is counted in `bytes` and `crc` only if the device has taken it whole. -/
def writePiece (w : Writer δ) (piece : Bytes) : Except DeviceFault Unit × Writer δ :=
  match Device.writeAll w.device piece with
  | (.error fault, device) => (.error fault, { w with device })
  | (.ok (), device) =>
    (.ok (), { w with
      device
      bytes := w.bytes + .ofNat piece.length
      crc := w.crc.update piece })

/-- A writer on `device` that has written nothing, not even the file header. -/
def blank (device : δ) (base : UInt32) : Writer δ := ⟨device, base, 0, 0, .start, none⟩

/-- A writer that has written `fileHeader`, and the device in any case. -/
def create (device : δ) (base : UInt32) : Except Fault (Writer δ) × δ :=
  match (blank device base).writePiece fileHeader with
  | (.error fault, w) => (.error (.device fault), w.device)
  | (.ok (), w) => (.ok w, w.device)

/-- The time and the length of the next record, if a frame of `length` bytes can be one. -/
def accept (w : Writer δ) (length : Nat) : Except Fault (Timestamp × UInt32) :=
  match Timestamp.at? w.base w.frames with
  | none => .error (.timestampOverflow w.frames)
  | some time =>
    if length < UInt32.size then .ok (time, .ofNat length)
    else .error (.frameTooLarge w.frames length)

/-- Writes a record that `accept` let through: its header, then its frame.  A header that was
written stays if the frame fails. -/
def putRecord (w : Writer δ) (time : Timestamp) (length : UInt32) (frame : Bytes) :
    Except Fault Timestamp × Writer δ :=
  match w.writePiece (recordHeader time length) with
  | (.error fault, w) => (.error (.device fault), w)
  | (.ok (), w) =>
    match w.writePiece frame with
    | (.error fault, w) => (.error (.device fault), w)
    | (.ok (), w) => (.ok time, { w with frames := w.frames + 1, lastTime := some time })

/-- Writes `frame` as the next record. -/
def append (w : Writer δ) (frame : Bytes) : Except Fault Timestamp × Writer δ :=
  match w.accept frame.length with
  | .error fault => (.error fault, w)
  | .ok (time, length) => w.putRecord time length frame

/-- Writes a frame of `n` zeros, which is made only if it is accepted. -/
def appendZeros (w : Writer δ) (n : Nat) : Except Fault Timestamp × Writer δ :=
  match w.accept n with
  | .error fault => (.error fault, w)
  | .ok (time, length) => w.putRecord time length (List.replicate n 0)

theorem appendZeros_eq (w : Writer δ) (n : Nat) :
    w.appendZeros n = w.append (List.replicate n 0) := by
  simp [appendZeros, append]

/-- Writes `frames` up to the first one that fails. -/
def appendAll (w : Writer δ) : List Bytes → Except Fault Unit × Writer δ
  | [] => (.ok (), w)
  | frame :: rest =>
    match w.append frame with
    | (.error fault, w) => (.error fault, w)
    | (.ok _, w) => w.appendAll rest

/-- Flushes the device and reports the `Totals`. -/
def close (w : Writer δ) : Except Fault Totals × δ :=
  match Device.flush w.device with
  | (.error fault, device) => (.error (.device fault), device)
  | (.ok (), device) => (.ok ⟨w.frames, w.bytes, w.crc.value, w.lastTime⟩, device)

end Writer

/-- Writes a whole capture of `frames` to a device. -/
def writeAll {δ : Type} [Device δ] (device : δ) (base : UInt32) (frames : List Bytes) :
    Except Fault Totals × δ :=
  match Writer.create device base with
  | (.error fault, device) => (.error fault, device)
  | (.ok w, _) =>
    match w.appendAll frames with
    | (.error fault, w) => (.error fault, w.device)
    | (.ok (), w) => w.close

end SwapCapture.Pcap
