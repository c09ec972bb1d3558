/-
Carrying out a plan.

Each swap goes through the same four steps: it is drawn, written as a record, put into a frame and
appended to the capture.  The identification of the frame is drawn right after the swap from the
same stream, so a run reads one stream in one order.

* `Plan.appendSwap` — one swap;
* `Plan.run` — a whole capture written to a device;
* `Plan.runToFile` — a whole capture written to a file of a tree.
-/
import SwapCapture.Files.Open
import SwapCapture.Plan.Basic
import SwapCapture.Swap.Record
import SwapCapture.Swap.Source

namespace SwapCapture

/-- A run between two swaps: what is still to be drawn from, and what has been written and counted.
-/
structure RunState (δ : Type) where
  source : IntentSource
  writer : Pcap.Writer δ
  classes : Tally

namespace Plan

variable {δ : Type} [Device δ]

/-- The frame of the swap at `index`, with the class of the swap. -/
def frameAt (plan : Plan) (index : UInt64) (source : IntentSource) :
    (SwapClass × Except FrameFault Frame) × IntentSource :=
  let ((kind, intent), source) := source.intent index
  -- the order of these two draws decides every later byte of a capture
  let (identification, source) := source.draw (plan.identification.next index)
  ((kind, Frame.build plan.ends plan.checksums (Record.encode intent) identification), source)

/-- Draws the swap at `index` and appends it to the capture. -/
def appendSwap (plan : Plan) (index : UInt64) (state : RunState δ) :
    Except Plan.Fault Unit × RunState δ :=
  let ((kind, frame), source) := plan.frameAt index state.source
  match frame with
  | .error cause => (.error (.frame index cause), { state with source })
  | .ok frame =>
    match state.writer.append frame.bytes with
    | (.error cause, writer) => (.error (.write cause), { state with source, writer })
    | (.ok _, writer) => (.ok (), ⟨source, writer, state.classes.add kind⟩)

/-- Appends the given number of swaps from `index` on, up to the first one that fails. -/
def appendSwaps (plan : Plan) (index : UInt64) :
    Nat → RunState δ → Except Plan.Fault Unit × RunState δ
  | 0, state => (.ok (), state)
  | n + 1, state =>
    match plan.appendSwap index state with
    | (.error fault, state) => (.error fault, state)
    | (.ok (), state) => plan.appendSwaps (index + 1) n state

/-- Writes the capture of `plan` to `device`. -/
def run (plan : Plan) (device : δ) : Except Plan.Fault Summary × δ :=
  match Pcap.Writer.create device plan.base with
  | (.error cause, device) => (.error (.write cause), device)
  | (.ok writer, _) =>
    let start : RunState δ := ⟨.ofSeed plan.profile plan.seed, writer, .zero⟩
    match plan.appendSwaps 0 plan.count.toNat start with
    | (.error fault, state) => (.error fault, state.writer.device)
    | (.ok (), state) =>
      match state.writer.close with
      | (.error cause, device) => (.error (.write cause), device)
      | (.ok capture, device) =>
        (.ok ⟨plan.profile, plan.seed, plan.base, state.classes, capture⟩, device)

/-- Writes the capture of `plan` to the file of `path`.  Whatever was written before a fault stays
in the file. -/
def runToFile (plan : Plan) (tree : FileTree) (path : String) :
    Except Plan.Fault Summary × FileTree :=
  match tree.create path with
  | (.error fault, tree) => (.error (.write (.device fault)), tree)
  | (.ok file, _) =>
    let (outcome, file) := plan.run file
    (outcome, file.close)

end Plan

/-- Writes a capture of `frames` to the file of `path`, as `runToFile` does for a plan. -/
def Pcap.writeFile (tree : FileTree) (path : String) (base : UInt32) (frames : List Bytes) :
    Except Pcap.Fault Pcap.Totals × FileTree :=
  match tree.create path with
  | (.error fault, tree) => (.error (.device fault), tree)
  | (.ok file, _) =>
    let (outcome, file) := Pcap.writeAll file base frames
    (outcome, file.close)

end SwapCapture
