/-
Plans: what a run is to produce, and what it has produced.

* `Plan` — everything a run depends on;
* `Tally` — how many swaps of each class there were;
* `Summary` — a plan's outcome when it went well;
* `Plan.Fault` — what stopped it otherwise.
-/
import SwapCapture.Net.Frame
import SwapCapture.Net.Identification
import SwapCapture.Pcap.Writer
import SwapCapture.Swap.Profile

namespace SwapCapture

structure Plan where
  count : UInt64
  profile : Profile
  seed : UInt64
  base : UInt32
  ends : Endpoints
  checksums : ChecksumPolicy
  identification : IdPolicy
deriving DecidableEq, Repr

def Plan.default : Plan where
  count := 100
  profile := .mixed
  seed := 42
  base := Timestamp.defaultBase
  ends := .default
  checksums := .zero
  identification := .random

/-- What stopped a run: the frame of the swap at `index` could not be built, or the writer failed.
-/
inductive Plan.Fault where
  | frame (index : UInt64) (cause : FrameFault)
  | write (cause : Pcap.Fault)
deriving DecidableEq, Repr

namespace Plan.Fault

/-- The stage of the run that a fault belongs to. -/
def stage : Plan.Fault → String
  | .frame .. => "frame"
  | .write _ => "write"

def message : Plan.Fault → String
  | .frame index cause => s!"frame stage failed at record {index.toNat}: {cause.message}"
  | .write cause => s!"write stage failed: {cause.message}"

end Plan.Fault

structure Tally where
  small : UInt64
  tight : UInt64
  large : UInt64
deriving DecidableEq, Repr

def Tally.zero : Tally := ⟨0, 0, 0⟩

def Tally.add (tally : Tally) : SwapClass → Tally
  | .small => { tally with small := tally.small + 1 }
  | .tight => { tally with tight := tally.tight + 1 }
  | .large => { tally with large := tally.large + 1 }

structure Summary where
  profile : Profile
  seed : UInt64
  base : UInt32
  classes : Tally
  capture : Pcap.Totals
deriving DecidableEq, Repr

end SwapCapture
