/-
What an inspection of a capture finds.

An inspection goes through the records of a capture in order and stops at the first one that is
not as it should be.  Its findings are the records before that one and a verdict.

* `Defect` — why a capture is rejected;
* `Row` — what is shown of a record;
* `Inspection` — the findings.
-/
import SwapCapture.Device.Basic
import SwapCapture.Net.Address
import SwapCapture.Pcap.Time
import SwapCapture.Swap.Record

namespace SwapCapture.Inspection

/-- What is wrong with a record; `found` and `length` are what the record has where it should not.
-/
inductive RecordDefect where
  | lengths (included full : UInt32)
  | goesBack (time previous : Timestamp)
  | truncated
  | noHeaders (length : Nat)
  | etherType (found : UInt16)
  | protocol (found : UInt8)
  /-- The length in its IPv4 header is `found`, where the packet has `length` bytes. -/
  | ipv4Length (found : UInt16) (length : Nat)
  /-- The length in its UDP header is `found`, where the segment has `length` bytes. -/
  | udpLength (found : UInt16) (length : Nat)
  /-- Its payload is not of `Record.size` bytes. -/
  | payload (length : Nat)
deriving DecidableEq, Repr

inductive Defect where
  | unopened (path : String) (fault : DeviceFault)
  /-- The capture ends within the file header. -/
  | noHeader
  | magic (found : UInt32)
  | version (major minor : UInt16)
  /-- The file header names a time zone or an accuracy of its clock. -/
  | clock
  /-- The file header promises another snapshot length than `Pcap.snapLength`. -/
  | snapLength (found : UInt32)
  | linkType (found : UInt32)
  | record (index : Nat) (defect : RecordDefect)
deriving DecidableEq, Repr

def RecordDefect.message (index : Nat) : RecordDefect → String
  | .lengths included full =>
    s!"frame {index}: incl_len {included.toNat} != orig_len {full.toNat}"
  | .goesBack time previous =>
    s!"frame {index}: timestamp {time.text} goes back from {previous.text}"
  | .truncated => s!"frame {index} truncated: failed to fill whole buffer"
  | .noHeaders length => s!"frame {index}: only {length} bytes"
  | .etherType found => s!"frame {index}: ethertype 0x{Text.hex 4 found.toNat}"
  | .protocol found => s!"frame {index}: IP protocol {found.toNat}"
  | .ipv4Length found length =>
    s!"frame {index}: IPv4 total length {found.toNat} for {length}-byte payload"
  | .udpLength found length =>
    s!"frame {index}: UDP length {found.toNat} for {length}-byte payload"
  | .payload length => s!"frame {index}: payload is {length} bytes, expected {Record.size}"

def Defect.message : Defect → String
  | .unopened path fault => s!"open \"{path}\": {fault.message}"
  | .noHeader => "reading global header: failed to fill whole buffer"
  | .magic found => s!"bad magic 0x{Text.hex 8 found.toNat}"
  | .version major minor => s!"unexpected version {major.toNat}.{minor.toNat}"
  | .clock => "timezone/sigfigs not zero"
  | .snapLength found => s!"unexpected snaplen {found.toNat}"
  | .linkType found => s!"unexpected link type {found.toNat}"
  | .record index defect => defect.message index

/-- What is shown of the record at `index`. -/
structure Row where
  index : Nat
  time : Timestamp
  length : UInt32
  identification : UInt16
  sourceIp : Ipv4Address
  sourcePort : UInt16
  destinationIp : Ipv4Address
  destinationPort : UInt16
  ipv4Sum : UInt16
  udpSum : UInt16
deriving DecidableEq, Repr

def Row.text (e : Row) : String :=
  let source := s!"{e.sourceIp.text}:{e.sourcePort.toNat}"
  let destination := s!"{e.destinationIp.text}:{e.destinationPort.toNat}"
  let identification := Text.hex 4 e.identification.toNat
  let sums := s!"0x{Text.hex 4 e.ipv4Sum.toNat}/0x{Text.hex 4 e.udpSum.toNat}"
  s!"{Text.decimalRight 6 e.index} {e.time.text} len={e.length.toNat} id=0x{identification} "
    ++ s!"{source} -> {destination} csum={sums}"

/-- What is known of a sound capture: the number of its `records`, and as `span` the first and the
last time if it has any. -/
structure Verdict where
  records : Nat
  span : Option (Timestamp × Timestamp)
deriving DecidableEq, Repr

/-- The closing line about a sound capture. -/
def Verdict.text (v : Verdict) : String :=
  match v.span with
  | some (first, last) =>
    s!"Read {v.records} frames, all consistent. Timestamps {first.text} .. {last.text}."
  | none => "Read 0 frames (header only)."

end Inspection

/-- The findings of an inspection: as `rows` the sound records from the front, and the `verdict`
about the whole. -/
structure Inspection where
  rows : List Inspection.Row
  verdict : Except Inspection.Defect Inspection.Verdict

namespace Inspection

/-- The lines of `rows`, which an inspection prints if it is to `dump` them. -/
def lines (i : Inspection) (dump : Bool) : List String :=
  if dump then i.rows.map Row.text else []

end Inspection

end SwapCapture
