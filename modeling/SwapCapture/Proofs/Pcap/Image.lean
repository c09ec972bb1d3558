/-
What the file of some frames looks like.

A capture file is a list of pieces: the file header, then for every frame the header of its record
and the frame itself.  `Pcap.image` is the file as a whole and `Pcap.totals` what is to be reported
of it:

* `overwriteAll?_fileHeader`, `overwriteAll?_recordHeader` — the headers, written field by field;
* `length_image` — how long the file is;
* `piecesFrom_append`, `image_append` — later frames only add pieces behind the earlier ones.
-/
import SwapCapture.Pcap.Writer
import SwapCapture.Proofs.Bytes.Placing
import SwapCapture.Proofs.Pcap.Clock

namespace SwapCapture.Pcap

open Bytes

/-- Both headers are buffers of zeros after their words have been written, each at its offset. -/
theorem overwriteAll?_fileHeader :
    overwriteAll? (List.replicate fileHeaderSize 0)
        [(0, le32 magic), (4, le16 versionMajor), (6, le16 versionMinor), (8, le32 0), (12, le32 0),
          (16, le32 snapLength), (20, le32 linkEthernet)]
      = some fileHeader := rfl

theorem overwriteAll?_recordHeader (time : Timestamp) (length : UInt32) :
    overwriteAll? (List.replicate recordHeaderSize 0)
        [(0, le32 time.seconds), (4, le32 time.micros), (8, le32 length), (12, le32 length)]
      = some (recordHeader time length) := rfl

/-- The header of the record of `frame`, if it is at `index` in its file. -/
def headerAt (base : UInt32) (index : Nat) (frame : Bytes) : Bytes :=
  recordHeader (.nth base index) (.ofNat frame.length)

/-- The pieces of the records of some frames, the first of which is at `index`. -/
def piecesFrom (base : UInt32) : Nat → List Bytes → List Bytes
  | _, [] => []
  | index, frame :: rest =>
    headerAt base index frame :: frame :: piecesFrom base (index + 1) rest

def filePieces (base : UInt32) (frames : List Bytes) : List Bytes :=
  fileHeader :: piecesFrom base 0 frames

/-- The bytes of a whole file: `filePieces` one behind the other. -/
def image (base : UInt32) (frames : List Bytes) : Bytes := (filePieces base frames).flatten

/-- The time of the last of `n` frames, if there is one. -/
def lastTime (base : UInt32) : Nat → Option Timestamp
  | 0 => none
  | n + 1 => some (.nth base n)

/-- What is to be reported of the file of `frames`. -/
def totals (base : UInt32) (frames : List Bytes) : Totals where
  frames := .ofNat frames.length
  bytes := .ofNat (image base frames).length
  crc := Crc32.of (image base frames)
  lastTime := lastTime base frames.length

@[simp] theorem length_headerAt (base : UInt32) (index : Nat) (frame : Bytes) :
    (headerAt base index frame).length = 16 := rfl

theorem piecesFrom_append (base : UInt32) (index : Nat) (front rest : List Bytes) :
    piecesFrom base index (front ++ rest)
      = piecesFrom base index front ++ piecesFrom base (index + front.length) rest := by
  induction front generalizing index with
  | nil => rfl
  | cons frame front ih =>
    rw [List.cons_append, piecesFrom, piecesFrom, ih, List.length_cons, List.cons_append,
      List.cons_append, Nat.add_assoc, Nat.add_comm 1]

theorem image_append (base : UInt32) (front rest : List Bytes) :
    image base (front ++ rest)
      = image base front ++ (piecesFrom base front.length rest).flatten := by
  rw [image, filePieces, piecesFrom_append, ← List.cons_append, List.flatten_append, Nat.zero_add]
  rfl

theorem length_piecesFrom_flatten (base : UInt32) (index : Nat) (frames : List Bytes) :
    (piecesFrom base index frames).flatten.length
      = (frames.map fun frame => 16 + frame.length).sum := by
  induction frames generalizing index with
  | nil => rfl
  | cons frame rest ih =>
    simp only [piecesFrom, List.flatten_cons, List.length_append, length_headerAt, ih,
      List.map_cons, List.sum_cons]
    omega

theorem length_image (base : UInt32) (frames : List Bytes) :
    (image base frames).length = 24 + (frames.map fun frame => 16 + frame.length).sum := by
  rw [image, filePieces, List.flatten_cons, List.length_append, length_piecesFrom_flatten]
  rfl

/-- The length of a file whose frames all have the same length. -/
theorem length_image_of_uniform (base : UInt32) {frames : List Bytes} {n : Nat}
    (uniform : ∀ frame ∈ frames, frame.length = n) :
    (image base frames).length = 24 + (16 + n) * frames.length := by
  rw [length_image, List.map_congr_left fun frame mem => by rw [uniform frame mem],
    List.map_const', List.sum_replicate_nat, Nat.mul_comm]

end SwapCapture.Pcap
