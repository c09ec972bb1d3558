/-
What a run reports about itself once its capture is in a file.

`Summary.report` gives the lines: how many packets there are, how they were made, the span of time
that they cover, how large the file is, and how to replay it.  `Summary.text` joins them into one
text, which has more lines than that if the path itself has more than one.
-/
import SwapCapture.Calendar
import SwapCapture.Plan.Basic
import SwapCapture.Swap.Record
import SwapCapture.Text.Lines

namespace SwapCapture.Summary

/-- The span from the first frame to `lastTime`.  A capture without frames has none. -/
def windowLine (s : Summary) : List String :=
  match s.capture.lastTime with
  | none => []
  | some time =>
    let first := Calendar.clockText s.base 0
    let last := Calendar.clockText time.seconds time.micros
    [s!"  Window: {first} .. {last}"]

def classesText (t : Tally) : String :=
  s!"small={t.small.toNat}, tight={t.tight.toNat}, large={t.large.toNat}"

/-- The lines about a run whose capture is in the file of `path`. -/
def report (s : Summary) (path : String) : List String :=
  [s!"[swap_traffic] Written {s.capture.frames.toNat} packets to {path}",
    s!"  SwapIntent wire size: {Record.size} bytes per packet",
    s!"  Mode: {s.profile.name}, seed: {s.seed.toNat} ({classesText s.classes})"]
  ++ windowLine s
  ++ [s!"  File: {s.capture.bytes.toNat} bytes, crc32 {Text.hex 8 s.capture.crc.toNat}",
    s!"  Replay with: tcpreplay --intf1=tap0 --mbps=100 {path}"]

def text (s : Summary) (path : String) : String := Text.ofLines (s.report path)

end SwapCapture.Summary
