/-
Capture times: the synthetic clock that stamps the frames of a file.

Frames are one millisecond apart, and the first one is at the start of a given second.

* `Timestamp.at?` — the time of the frame at an index, as long as its seconds fit in 32 bits;
* `Timestamp.before` — one time lies before another.
-/
import SwapCapture.Text.Digits

namespace SwapCapture

structure Timestamp where
  seconds : UInt32
  micros : UInt32
deriving DecidableEq, Repr

namespace Timestamp

/-- The second that a run starts in unless told otherwise: 2023-11-14 22:13:20 UTC. -/
def defaultBase : UInt32 := 1700000000

/-- The time of the frame at `index` when the first one is at second `base`. -/
def at? (base : UInt32) (index : UInt64) : Option Timestamp :=
  let seconds := base.toUInt64 + index / 1000
  if seconds ≤ 0xFFFFFFFF then
    some ⟨seconds.toUInt32, (index % 1000).toUInt32 * 1000⟩
  else none

/-- Whether `a` lies before `b`: by seconds, then by microseconds. -/
def before (a b : Timestamp) : Bool :=
  a.seconds < b.seconds || (a.seconds == b.seconds && a.micros < b.micros)

/-- The `seconds`, a point, and at least six digits of `micros`. -/
def text (t : Timestamp) : String :=
  s!"{t.seconds.toNat}.{Text.decimal 6 t.micros.toNat}"

end Timestamp

end SwapCapture
