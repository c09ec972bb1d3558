/-
Inspecting a capture, record by record.

* `Inspection.inspectFileHeader`, `Inspection.inspectFrame` — what must hold of the file header
  and of every frame, in the order in which defects are reported;
* `Inspection.of` — the inspection of a whole capture;
* `Inspection.ofFile` — the same for a file, which may be missing.

What is left behind the last record may be shorter than a record header and is not looked at.
-/
import SwapCapture.Inspection.Basic
import SwapCapture.Net.Frame
import SwapCapture.Pcap.Header

namespace SwapCapture.Inspection

open Bytes

def inspectFileHeader (header : Bytes) : Except Defect Unit :=
  if le32At header 0 ≠ Pcap.magic then .error (.magic (le32At header 0))
  else if le16At header 4 ≠ Pcap.versionMajor ∨ le16At header 6 ≠ Pcap.versionMinor then
    .error (.version (le16At header 4) (le16At header 6))
  else if le32At header 8 ≠ 0 ∨ le32At header 12 ≠ 0 then .error .clock
  else if le32At header 16 ≠ Pcap.snapLength then .error (.snapLength (le32At header 16))
  else if le32At header 20 ≠ Pcap.linkEthernet then .error (.linkType (le32At header 20))
  else .ok ()

/-- Checks that `frame` carries a swap record: the first check that fails is its `RecordDefect`. -/
def inspectFrame (frame : Bytes) : Except RecordDefect Unit :=
  let payload := frame.length - Frame.headersSize
  if frame.length < Frame.headersSize then .error (.noHeaders frame.length)
  else if be16At frame 12 ≠ Frame.etherTypeIpv4 then .error (.etherType (be16At frame 12))
  else if byteAt frame 23 ≠ Checksum.udpProtocol then .error (.protocol (byteAt frame 23))
  else if (be16At frame 16).toNat ≠ Frame.ipv4Size + Frame.udpSize + payload then
    .error (.ipv4Length (be16At frame 16) payload)
  else if (be16At frame 38).toNat ≠ Frame.udpSize + payload then
    .error (.udpLength (be16At frame 38) payload)
  else if payload ≠ Record.size then .error (.payload payload)
  else .ok ()

/-- The four octets at `offset`. -/
def ipv4At (frame : Bytes) (offset : Nat) : Ipv4Address :=
  ⟨byteAt frame offset, byteAt frame (offset + 1), byteAt frame (offset + 2),
    byteAt frame (offset + 3)⟩

def rowOf (index : Nat) (time : Timestamp) (length : UInt32) (frame : Bytes) : Row where
  index
  time
  length
  identification := be16At frame 18
  sourceIp := ipv4At frame 26
  sourcePort := be16At frame 34
  destinationIp := ipv4At frame 30
  destinationPort := be16At frame 36
  ipv4Sum := be16At frame 24
  udpSum := be16At frame 40

/-- The first `n` bytes and those behind them, if there are as many. -/
def splitExact? (n : Nat) (bytes : Bytes) : Option (Bytes × Bytes) :=
  -- `n` may come from the capture itself, so the walk has to end with the bytes
  let (front, rest) := bytes.splitAt n
  if front.length = n then some (front, rest) else none

theorem splitExact?_eq_some {n : Nat} {bytes front rest : Bytes}
    (h : splitExact? n bytes = some (front, rest)) :
    front.length = n ∧ bytes = front ++ rest := by
  simp only [splitExact?, List.splitAt_eq] at h
  split at h
  · next hn =>
    cases h
    exact ⟨hn, (List.take_append_drop n bytes).symm⟩
  · cases h

/-- Whether `time` lies before the time of the record in front of it. -/
def goesBack? (previous : Option Timestamp) (time : Timestamp) : Option Timestamp :=
  match previous with
  | some p => if time.before p then some p else none
  | none => none

/-- Checks the record behind `header` and gives its frame and what `rest` has behind it. -/
def inspectRecord (previous : Option Timestamp) (header rest : Bytes) :
    Except RecordDefect (Bytes × Bytes) :=
  let time : Timestamp := ⟨le32At header 0, le32At header 4⟩
  let included := le32At header 8
  let full := le32At header 12
  -- the order of these checks decides which defect is reported
  if included ≠ full then .error (.lengths included full)
  else
    match goesBack? previous time with
    | some p => .error (.goesBack time p)
    | none =>
      match splitExact? included.toNat rest with
      | none => .error .truncated
      | some (frame, rest) =>
        match inspectFrame frame with
        | .error defect => .error defect
        | .ok () => .ok (frame, rest)

/-- What `inspectRecord` leaves is no more than it was given, so the walk over the records ends. -/
theorem length_of_inspectRecord {previous : Option Timestamp} {header rest frame after : Bytes}
    (h : inspectRecord previous header rest = .ok (frame, after)) :
    after.length ≤ rest.length := by
  unfold inspectRecord at h
  simp only at h
  split at h
  · cases h
  split at h
  · cases h
  split at h
  · cases h
  · next split =>
    split at h
    · cases h
    · cases h
      have := (splitExact?_eq_some split).2
      simp [this]

/-- Checks the records from `index` on, and gives the sound ones from the front and what was found
of all of them. -/
def inspectRecords (index : Nat) (span : Option (Timestamp × Timestamp)) (bytes : Bytes) :
    Inspection :=
  match _ : splitExact? Pcap.recordHeaderSize bytes with
  | none => ⟨[], .ok ⟨index, span⟩⟩
  | some (header, rest) =>
    match _ : inspectRecord (span.map Prod.snd) header rest with
    | .error defect => ⟨[], .error (.record index defect)⟩
    | .ok (frame, after) =>
      let time : Timestamp := ⟨le32At header 0, le32At header 4⟩
      let first := (span.map Prod.fst).getD time
      let others := inspectRecords (index + 1) (some (first, time)) after
      ⟨rowOf index time (le32At header 8) frame :: others.rows, others.verdict⟩
termination_by bytes.length
decreasing_by
  -- every record takes its header at least, whatever its lengths say
  have split := splitExact?_eq_some ‹splitExact? _ bytes = some _›
  have shorter := length_of_inspectRecord ‹inspectRecord _ _ rest = .ok _›
  have : bytes.length = Pcap.recordHeaderSize + rest.length := by
    rw [split.2, List.length_append, split.1]
  simp only [Pcap.recordHeaderSize] at this
  omega

def of (capture : Bytes) : Inspection :=
  match splitExact? Pcap.fileHeaderSize capture with
  | none => ⟨[], .error .noHeader⟩
  | some (header, rest) =>
    match inspectFileHeader header with
    | .error defect => ⟨[], .error defect⟩
    | .ok () => inspectRecords 0 none rest

/-- The inspection of the file at `path`, which has the given content if it is there. -/
def ofFile (path : String) : Option Bytes → Inspection
  | none => ⟨[], .error (.unopened path .notFound)⟩
  | some capture => of capture

end SwapCapture.Inspection
