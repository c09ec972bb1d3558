/-
What the framing options of a plan can change in its capture.

The base second, the endpoints and the checksum policy of a plan are not read by any draw.  So two
plans that ask for the same swaps make the same announcements, and their files differ at most in the
bytes that hold these options themselves:

* `Bytes.AgreeOff` — two texts of the same length that agree off some free places;
* `Plan.Alike` — plans that ask for the same swaps, and `announcements_eq`, that they make them;
* `FreeInFrame`, `FreeInRecord`, `FreeInFile` — the places that the options are written to;
* `agreeOff_frameOf`, `agreeOff_headerAt`, `agreeOff_records` — agreement layer by layer;
* `agreeOff_of_runs` — the files of two runs agree off these places and carry the same traffic.
-/
import Mathlib.Data.List.Forall2
import SwapCapture.Proofs.Plan.Meaning

namespace SwapCapture

/-- Bytes of the same length that agree at all places that are not `free`. -/
structure Bytes.AgreeOff (free : Nat → Prop) (xs ys : Bytes) : Prop where
  length_eq : xs.length = ys.length
  getElem?_eq : ∀ j, ¬free j → xs[j]? = ys[j]?

namespace Bytes.AgreeOff

variable {free free' : Nat → Prop} {xs ys xs' ys' : Bytes}

theorem of_eq (same : xs = ys) : AgreeOff free xs ys := by
  subst same
  exact ⟨rfl, fun _ _ => rfl⟩

/-- A field that differs has to be `free` as a whole. -/
theorem of_ne (length_eq : xs.length = ys.length) (h : xs ≠ ys → ∀ j < xs.length, free j) :
    AgreeOff free xs ys := by
  by_cases same : xs = ys
  · exact of_eq same
  refine ⟨length_eq, ?_⟩
  intro j fixed
  have beyond : xs.length ≤ j := Nat.not_lt.mp fun within => fixed (h same j within)
  rw [List.getElem?_eq_none beyond, List.getElem?_eq_none (length_eq ▸ beyond)]

theorem mono (agree : AgreeOff free xs ys) (h : ∀ j < xs.length, free j → free' j) :
    AgreeOff free' xs ys := by
  refine ⟨agree.length_eq, ?_⟩
  intro j fixed
  by_cases within : j < xs.length
  · exact agree.getElem?_eq j fun here => fixed (h j within here)
  · have beyond : xs.length ≤ j := Nat.not_lt.mp within
    rw [List.getElem?_eq_none beyond, List.getElem?_eq_none (agree.length_eq ▸ beyond)]

/-- Places behind a front are counted from its end. -/
theorem append {n : Nat} (length_eq : xs.length = n) (front : AgreeOff free xs ys)
    (rest : AgreeOff (fun j => free (n + j)) xs' ys') :
    AgreeOff free (xs ++ xs') (ys ++ ys') := by
  have front_length := front.length_eq
  constructor
  · rw [List.length_append, List.length_append, front_length, rest.length_eq]
  intro j fixed
  by_cases within : j < n
  · rw [List.getElem?_append_left (by omega), List.getElem?_append_left (by omega)]
    exact front.getElem?_eq j fixed
  · obtain ⟨k, rfl⟩ : ∃ k, j = n + k := ⟨j - n, by omega⟩
    rw [List.getElem?_append_right (by omega), List.getElem?_append_right (by omega),
      ← front_length, length_eq, Nat.add_sub_cancel_left]
    exact rest.getElem?_eq k fixed

end Bytes.AgreeOff

namespace Plan

open Bytes Pcap

/-- Two plans that ask for the same swaps. -/
structure Alike (p q : Plan) : Prop where
  count_eq : p.count = q.count
  profile_eq : p.profile = q.profile
  seed_eq : p.seed = q.seed
  identification_eq : p.identification = q.identification

variable {p q : Plan}

/-- No draw reads a framing option. -/
theorem announcements_eq (alike : Alike p q) : p.announcements = q.announcements := by
  rw [announcements, announcements, alike.count_eq, alike.profile_eq, alike.seed_eq,
    alike.identification_eq]

/-! ### Places -/

def InAddresses (o : Nat) : Prop := o < 12 ∨ 26 ≤ o ∧ o < 38

def InChecksums (o : Nat) : Prop := 24 ≤ o ∧ o < 26 ∨ 40 ≤ o ∧ o < 42

/-- The places of a frame that the plans `p` and `q` may fill in differently. -/
def FreeInFrame (p q : Plan) (o : Nat) : Prop :=
  (p.ends ≠ q.ends ∧ InAddresses o) ∨
    ((p.ends ≠ q.ends ∨ p.checksums ≠ q.checksums) ∧ InChecksums o)

/-- The places of a record that they may: the seconds in front of the frame, and those of the frame.
-/
def FreeInRecord (p q : Plan) (o : Nat) : Prop :=
  (p.base ≠ q.base ∧ o < 4) ∨ (16 ≤ o ∧ FreeInFrame p q (o - 16))

/-- The places of records of 106 bytes one behind the other. -/
def FreeInRecords (p q : Plan) (j : Nat) : Prop :=
  ∃ i o, j = 106 * i + o ∧ o < 106 ∧ FreeInRecord p q o

/-- The places of a file, the records of which begin behind 24 bytes. -/
def FreeInFile (p q : Plan) (j : Nat) : Prop := 24 ≤ j ∧ FreeInRecords p q (j - 24)

/-! ### Agreement layer by layer -/

section Layout

variable (ends ends' : Endpoints) (sums sums' : UInt16 × UInt16) (identification : UInt16)
  (payload : Bytes)

/-- A `layout`, cut wherever its fields begin or cease to depend on endpoints and checksums. -/
theorem layout_eq_fields :
    Frame.layout ends identification sums.1 sums.2 payload
      = (ends.destinationMac.octets ++ ends.sourceMac.octets)
        ++ ((be16 Frame.etherTypeIpv4 ++ ([0x45, 0]
            ++ be16 (20 + UInt16.ofNat (Frame.udpSize + payload.length)) ++ be16 identification
            ++ be16 0x4000 ++ [64, Checksum.udpProtocol]))
          ++ (be16 sums.1
            ++ ((ends.sourceIp.octets ++ ends.destinationIp.octets ++ be16 ends.sourcePort
                ++ be16 ends.destinationPort)
              ++ (be16 (UInt16.ofNat (Frame.udpSize + payload.length))
                ++ (be16 sums.2 ++ payload))))) := rfl

/-- Frames around the same payload with the same identification. -/
theorem agreeOff_layout {free : Nat → Prop}
    (of_ends : ends ≠ ends' → ∀ o, InAddresses o → free o)
    (of_sums : sums ≠ sums' → ∀ o, InChecksums o → free o) :
    AgreeOff free (Frame.layout ends identification sums.1 sums.2 payload)
      (Frame.layout ends' identification sums'.1 sums'.2 payload) := by
  rw [layout_eq_fields, layout_eq_fields]
  -- field by field from the front: a field that depends on no option is the same in both
  refine AgreeOff.append (n := 12) (by rfl) (.of_ne rfl ?macs) <|
    AgreeOff.append (n := 12) (by rfl) (.of_eq rfl) <|
    AgreeOff.append (n := 2) (by rfl) (.of_ne rfl ?ipv4Sum) <|
    AgreeOff.append (n := 12) (by rfl) (.of_ne rfl ?sockets) <|
    AgreeOff.append (n := 2) (by rfl) (.of_eq rfl) <|
    AgreeOff.append (n := 2) (by rfl) (.of_ne rfl ?udpSum) (.of_eq rfl)
  case macs =>
    intro differ j (within : j < 12)
    refine of_ends (fun same => differ (by rw [same])) _ (.inl ?_)
    omega
  case sockets =>
    intro differ j (within : j < 12)
    refine of_ends (fun same => differ (by rw [same])) _ (.inr ?_)
    omega
  case ipv4Sum =>
    intro differ j (within : j < 2)
    refine of_sums (fun same => differ (by rw [same])) _ (.inl ?_)
    omega
  case udpSum =>
    intro differ j (within : j < 2)
    refine of_sums (fun same => differ (by rw [same])) _ (.inr ?_)
    omega

end Layout

theorem agreeOff_frameOf (p q : Plan) (a : Announcement) :
    AgreeOff (FreeInFrame p q) (p.frameOf a) (q.frameOf a) := by
  rw [frameOf, frameOf, Frame.bytesOf, Frame.bytesOf]
  apply agreeOff_layout
  · intro differ o here
    exact .inl ⟨differ, here⟩
  · intro differ o here
    refine .inr ⟨?_, here⟩
    -- checksums are computed from the endpoints and from what both frames carry
    by_contra same
    rw [not_or, not_not, not_not] at same
    exact differ (by rw [same.1, same.2])

theorem agreeOff_headerAt (p q : Plan) (index : Nat) {frame frame' : Bytes}
    (length_eq : frame.length = frame'.length) :
    AgreeOff (FreeInRecord p q) (headerAt p.base index frame) (headerAt q.base index frame') := by
  -- microseconds and lengths depend on the index and on the frame alone
  have cut (base : UInt32) : headerAt base index frame
      = le32 (Timestamp.nth base index).seconds
        ++ (le32 (.ofNat (index % 1000 * 1000)) ++ le32 (.ofNat frame.length)
          ++ le32 (.ofNat frame.length)) := rfl
  have same_length : headerAt q.base index frame' = headerAt q.base index frame := by
    rw [headerAt, headerAt, length_eq]
  rw [same_length, cut, cut]
  refine AgreeOff.append (n := 4) (by rfl) (.of_ne rfl ?_) (.of_eq rfl)
  intro differ j (within : j < 4)
  exact .inl ⟨fun same => differ (by rw [same]), within⟩

theorem agreeOff_record (p q : Plan) (index : Nat) (a : Announcement) :
    AgreeOff (FreeInRecord p q) (headerAt p.base index (p.frameOf a) ++ p.frameOf a)
      (headerAt q.base index (q.frameOf a) ++ q.frameOf a) := by
  have frames_agree := agreeOff_frameOf p q a
  refine (agreeOff_headerAt p q index frames_agree.length_eq).append (length_headerAt _ _ _) ?_
  refine frames_agree.mono ?_
  intro j _ free
  refine .inr ⟨Nat.le_add_right 16 j, ?_⟩
  rwa [Nat.add_sub_cancel_left]

/-- Records of the same announcements, the first of which is at `index` in both files. -/
theorem agreeOff_records (p q : Plan) (index : Nat) (announced : List Announcement) :
    AgreeOff (FreeInRecords p q) (piecesFrom p.base index (announced.map p.frameOf)).flatten
      (piecesFrom q.base index (announced.map q.frameOf)).flatten := by
  induction announced generalizing index with
  | nil =>
    rw [List.map_nil, List.map_nil, piecesFrom, piecesFrom]
    exact .of_eq rfl
  | cons a rest ih =>
    have record_length : (headerAt p.base index (p.frameOf a) ++ p.frameOf a).length = 106 := by
      rw [List.length_append, length_headerAt, length_frameOf]
    simp only [List.map_cons, piecesFrom, List.flatten_cons]
    rw [← List.append_assoc, ← List.append_assoc]
    refine AgreeOff.append record_length ?first ?others
    case first =>
      refine (agreeOff_record p q index a).mono ?_
      intro j within free
      rw [record_length] at within
      exact ⟨0, j, by omega, within, free⟩
    -- places in later records are a record further on
    case others =>
      refine (ih (index + 1)).mono ?_
      rintro _ - ⟨i, o, rfl, within, free⟩
      exact ⟨i + 1, o, by omega, within, free⟩

theorem agreeOff_image (alike : Alike p q) :
    AgreeOff (FreeInFile p q) (image p.base p.frames) (image q.base q.frames) := by
  rw [image, image, filePieces, filePieces, List.flatten_cons, List.flatten_cons, frames, frames,
    announcements_eq alike]
  refine AgreeOff.append length_fileHeader (.of_eq rfl) ?_
  refine (agreeOff_records p q 0 q.announcements).mono ?_
  intro j _ free
  refine ⟨Nat.le_add_right 24 j, ?_⟩
  rwa [fileHeaderSize, Nat.add_sub_cancel_left]

/-! ### Two runs -/

/-- Packets with the same lengths, identification and payload. -/
structure SameLoad (x y : Frame.Packet) : Prop where
  totalLength_eq : x.totalLength = y.totalLength
  udpLength_eq : x.udpLength = y.udpLength
  identification_eq : x.identification = y.identification
  payload_eq : x.payload = y.payload

/-- Records that differ in their seconds at most, around frames with the same load. -/
structure SameTraffic (x y : StoredFrame) : Prop where
  micros_eq : x.time.micros = y.time.micros
  included_eq : x.included = y.included
  full_eq : x.full = y.full
  load : ∃ packet packet', Frame.parse? x.frame = some packet ∧
    Frame.parse? y.frame = some packet' ∧ SameLoad packet packet'

theorem sameTraffic_storedAt (p q : Plan) (index : Nat) (a : Announcement) :
    SameTraffic (storedAt p.base index (p.frameOf a)) (storedAt q.base index (q.frameOf a)) := by
  have length_eq : (p.frameOf a).length = (q.frameOf a).length := (agreeOff_frameOf p q a).length_eq
  refine ⟨?_, congrArg UInt32.ofNat length_eq, congrArg UInt32.ofNat length_eq, ?_⟩
  · show UInt32.ofNat (index % 1000 * 1000) = .ofNat (index % 1000 * 1000)
    rfl
  exact ⟨_, _, parse?_frameOf p a, parse?_frameOf q a, rfl, rfl, rfl, rfl⟩

theorem sameTraffic_storedFrom (p q : Plan) (index : Nat) (announced : List Announcement) :
    List.Forall₂ SameTraffic (storedFrom p.base index (announced.map p.frameOf))
      (storedFrom q.base index (announced.map q.frameOf)) := by
  induction announced generalizing index with
  | nil => exact .nil
  | cons a rest ih => exact .cons (sameTraffic_storedAt p q index a) (ih (index + 1))

/-- **Framing options do not leak into the traffic.** Of two plans that are `Alike`, whatever their
base seconds, endpoints and checksum policies, both runs go well, on any two devices.  Then the
files have the same length and agree at every place that is not `FreeInFile`, so that it does not
hold an option in which the plans differ.  Record by record they carry the `SameTraffic`, and both
runs count the same swaps. -/
theorem agreeOff_of_runs {δ δ' : Type} [Device δ] [Device δ'] {device after : δ}
    {device' after' : δ'} {summary summary' : Summary} (alike : Alike p q)
    (h : p.run device = (.ok summary, after)) (h' : q.run device' = (.ok summary', after')) :
    ∃ file file', Device.contents after = Device.contents device ++ file ∧
      Device.contents after' = Device.contents device' ++ file' ∧
      AgreeOff (FreeInFile p q) file file' ∧
      (∃ records records', read? file = some ⟨fileHeader, records⟩ ∧
        read? file' = some ⟨fileHeader, records'⟩ ∧ records.length = p.count.toNat ∧
        List.Forall₂ SameTraffic records records') ∧
      p.announcements = q.announcements ∧ summary.classes = summary'.classes := by
  obtain ⟨-, rfl, held⟩ := eq_summaryOf_of_run h
  obtain ⟨-, rfl, held'⟩ := eq_summaryOf_of_run h'
  have announced := announcements_eq alike
  refine ⟨_, _, held, held', agreeOff_image alike, ?_, announced, ?_⟩
  · refine ⟨_, _, read?_image p.base (short_of_mem_frames p),
      read?_image q.base (short_of_mem_frames q), ?_, ?_⟩
    · rw [length_storedFrom, length_frames]
    -- both plans frame the same announcements
    · rw [frames, frames, announced]
      exact sameTraffic_storedFrom p q 0 q.announcements
  · show p.tally = q.tally
    rw [tally, tally, announced]

/-- A hundred swaps, once by the default plan and once between other ports, in the last second of
the clock and with checksums: in the first frame nothing differs from the type to the protocol. -/
theorem agreeOff_of_runs_lastSecond :
    ∃ q : Plan, q.base = 0xFFFFFFFF ∧ q.ends ≠ Plan.default.ends ∧ q.checksums = .compute ∧
      ∃ summary summary' after after', Plan.default.run Bounded.memory = (.ok summary, after) ∧
        q.run Bounded.memory = (.ok summary', after') ∧
        (Device.contents after).length = (Device.contents after').length ∧
        (∀ j, 52 ≤ j → j < 64 → (Device.contents after)[j]? = (Device.contents after')[j]?) ∧
        summary.classes = summary'.classes := by
  let q : Plan := { Plan.default with
    base := 0xFFFFFFFF
    ends := { Endpoints.default with sourcePort := 1, destinationPort := 2 }
    checksums := .compute }
  have alike : Alike Plan.default q := ⟨rfl, rfl, rfl, rfl⟩
  have room : Plan.default.count.toNat ≤ Timestamp.room Plan.default.base := by decide
  have room' : q.count.toNat ≤ Timestamp.room q.base := by decide
  obtain ⟨after, ran⟩ := run_of_accepting Bounded.accepting_memory room
  obtain ⟨after', ran'⟩ := run_of_accepting Bounded.accepting_memory room'
  obtain ⟨file, file', held, held', agree, -, -, classes_eq⟩ := agreeOff_of_runs alike ran ran'
  have held : Device.contents after = file := held
  have held' : Device.contents after' = file' := held'
  refine ⟨q, rfl, by decide, rfl, _, _, after, after', ran, ran', ?_, ?_, classes_eq⟩
  · rw [held, held']
    exact agree.length_eq
  · intro j from_type to_protocol
    rw [held, held']
    refine agree.getElem?_eq j ?_
    -- such a place lies in the first record, and there only in its frame
    rintro ⟨-, i, o, j_eq, within, ⟨-, seconds⟩ | ⟨-, ⟨-, here⟩ | ⟨-, here⟩⟩⟩
    · omega
    · rw [InAddresses] at here
      omega
    · rw [InChecksums] at here
      omega

end Plan

end SwapCapture
