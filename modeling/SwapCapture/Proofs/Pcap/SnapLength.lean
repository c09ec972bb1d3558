/-
The most bytes that a record may hold.

The header of a file says that no record holds more bytes of a frame than its snapshot length, which
is 65535.  Nothing looks at this number when a frame is written: frames are never cut short, and a
payload may be so long that its IPv4 packet alone has 65535 bytes, with the Ethernet header in front
of it.  So a file is as its header says just as far as its payloads are short enough:

* `Capture.Conforms` — no record is longer than the header of the file says;
* `conforms_read_iff` — when the file of some frames conforms;
* `conforms_iff_of_parcels` — when the file of some frames with payloads does;
* `exceeds_snapLength` — a payload that has a frame, and a file that is not as its header says.
-/
import SwapCapture.Proofs.Net.RoundTrip
import SwapCapture.Proofs.Pcap.Reader

namespace SwapCapture.Pcap

open Bytes Device

/-- The most bytes of a frame that a record may hold, as `header` says. -/
def snapLengthAt (header : Bytes) : Nat := (le32At header 16).toNat

/-- No record of `capture` holds more bytes than the header of its file says. -/
def Capture.Conforms (capture : Capture) : Prop :=
  ∀ record ∈ capture.records, record.included.toNat ≤ snapLengthAt capture.header

theorem snapLengthAt_fileHeader : snapLengthAt fileHeader = 65535 := by decide

/-! ### Payloads in frames -/

/-- A payload and a frame that `Frame.build` made for it, with whatever endpoints and checksums. -/
structure Parcel where
  payload : Bytes
  frame : Bytes
  built : ∃ ends policy identification,
    Frame.build ends policy payload identification = .ok ⟨frame⟩

theorem Parcel.length_payload_le (parcel : Parcel) : parcel.payload.length ≤ 65507 := by
  obtain ⟨ends, policy, identification, built⟩ := parcel.built
  exact (Frame.parse?_of_build built).1

theorem Parcel.length_frame (parcel : Parcel) :
    parcel.frame.length = 42 + parcel.payload.length := by
  obtain ⟨ends, policy, identification, built⟩ := parcel.built
  exact Frame.length_of_build built

theorem Parcel.short (parcels : List Parcel) :
    ∀ frame ∈ parcels.map Parcel.frame, frame.length < 2 ^ 32 := by
  intro frame mem
  obtain ⟨parcel, -, rfl⟩ := List.mem_map.mp mem
  have payload_le := parcel.length_payload_le
  rw [parcel.length_frame]
  omega

/-- The parcel of a payload that is short enough to have a frame. -/
def Parcel.of (ends : Endpoints) (policy : ChecksumPolicy) (identification : UInt16)
    {payload : Bytes} (small : payload.length ≤ Frame.maxPayload) : Parcel where
  payload
  frame := Frame.bytesOf ends policy identification payload
  built := ⟨ends, policy, identification, Frame.build_eq_layout small⟩

/-! ### The length of records -/

/-- The records of some frames are as long as the frames. -/
theorem conforms_read_iff (base : UInt32) {frames : List Bytes}
    (short : ∀ frame ∈ frames, frame.length < 2 ^ 32) :
    (Capture.mk fileHeader (storedFrom base 0 frames)).Conforms ↔
      ∀ frame ∈ frames, frame.length ≤ 65535 := by
  rw [Capture.Conforms, snapLengthAt_fileHeader]
  constructor
  · intro conforms frame mem
    obtain ⟨i, at_i⟩ := List.mem_iff_getElem?.mp mem
    have stored : (storedFrom base 0 frames)[i]? = some (storedAt base (0 + i) frame) := by
      rw [getElem?_storedFrom, at_i, Option.map_some]
    have le := conforms _ (List.mem_of_getElem? stored)
    rwa [storedAt, UInt32.toNat_ofNat_of_lt' (short frame mem)] at le
  · intro fits record mem
    obtain ⟨i, at_i⟩ := List.mem_iff_getElem?.mp mem
    rw [getElem?_storedFrom, Option.map_eq_some_iff] at at_i
    obtain ⟨frame, found, rfl⟩ := at_i
    have mem := List.mem_of_getElem? found
    rw [storedAt, UInt32.toNat_ofNat_of_lt' (short frame mem)]
    exact fits frame mem

/-- A frame is short enough just if its payload leaves room for 42 bytes of headers. -/
theorem frames_le_iff (parcels : List Parcel) :
    (∀ frame ∈ parcels.map Parcel.frame, frame.length ≤ 65535) ↔
      ∀ parcel ∈ parcels, parcel.payload.length ≤ 65493 := by
  rw [List.forall_mem_map]
  constructor
  · intro fits parcel mem
    have le := fits parcel mem
    rw [parcel.length_frame] at le
    omega
  · intro fits parcel mem
    have le := fits parcel mem
    rw [parcel.length_frame]
    omega

/-- **When a capture of payloads conforms.** Whatever the device, the start of the clock and the
place of a payload in the file, the record of a payload holds 42 bytes more than the payload, and
this is no more than `snapLengthAt` of the header just if the payload has at most 65493 bytes.  So a
capture `Conforms` just if all its payloads have no more. -/
theorem conforms_iff_of_parcels {δ : Type} [Device δ] {device after : δ} {base : UInt32}
    {parcels : List Parcel} {result : Totals} (empty : contents device = [])
    (written : writeAll device base (parcels.map Parcel.frame) = (.ok result, after)) :
    ∃ capture, read? (contents after) = some capture ∧
      capture.records.map StoredFrame.frame = parcels.map Parcel.frame ∧
      snapLengthAt capture.header = 65535 ∧
      (∀ (i : Nat) (parcel : Parcel) (record : StoredFrame),
        parcels[i]? = some parcel → capture.records[i]? = some record →
        record.included.toNat = 42 + parcel.payload.length ∧ record.full = record.included ∧
        (record.included.toNat ≤ snapLengthAt capture.header ↔
          parcel.payload.length ≤ 65493)) ∧
      (capture.Conforms ↔ ∀ parcel ∈ parcels, parcel.payload.length ≤ 65493) := by
  have short := Parcel.short parcels
  obtain ⟨-, -, held⟩ := eq_totals_of_writeAll short written
  rw [empty, List.nil_append] at held
  refine ⟨⟨fileHeader, storedFrom base 0 (parcels.map Parcel.frame)⟩, ?_,
    map_frame_storedFrom base 0 _, snapLengthAt_fileHeader, ?_, ?_⟩
  · rw [held]
    exact read?_image base short
  -- the record at `i` is that of the frame at `i`, which is 42 bytes longer than its payload
  · intro i parcel record at_i stored
    have frame_at : (parcels.map Parcel.frame)[i]? = some parcel.frame := by
      rw [List.getElem?_map, at_i, Option.map_some]
    rw [getElem?_storedFrom, frame_at, Option.map_some, Option.some_inj] at stored
    subst stored
    have included : (storedAt base (0 + i) parcel.frame).included.toNat
        = 42 + parcel.payload.length := by
      rw [storedAt, UInt32.toNat_ofNat_of_lt' (short _ (List.mem_of_getElem? frame_at)),
        parcel.length_frame]
    refine ⟨included, rfl, ?_⟩
    rw [included, snapLengthAt_fileHeader]
    omega
  · rw [conforms_read_iff base short, frames_le_iff]

/-- An empty payload and the longest one whose record is not too long. -/
theorem conforms_iff_of_parcels_longest :
    ∃ parcels : List Parcel, parcels.map (fun parcel => parcel.payload.length) = [0, 65493] ∧
      ∃ result after capture,
        writeAll Bounded.memory 0 (parcels.map Parcel.frame) = (.ok result, after) ∧
        read? (contents after) = some capture ∧ capture.Conforms := by
  have longest : (List.replicate 65493 (0xFF : UInt8)).length = 65493 := List.length_replicate
  have small : (List.replicate 65493 (0xFF : UInt8)).length ≤ Frame.maxPayload := by
    rw [longest]
    decide
  let parcels : List Parcel :=
    [.of .default .zero 1 (show ([] : Bytes).length ≤ Frame.maxPayload by decide),
      .of .default .compute 2 small]
  have lengths : parcels.map (fun parcel => parcel.payload.length) = [0, 65493] := by
    show [0, (List.replicate 65493 (0xFF : UInt8)).length] = [0, 65493]
    rw [longest]
  obtain ⟨after, written⟩ := writeAll_of_accepting Bounded.accepting_memory (Parcel.short parcels)
    (show 2 ≤ Timestamp.room 0 by decide)
  obtain ⟨capture, read, -, -, -, conforms⟩ := conforms_iff_of_parcels rfl written
  refine ⟨parcels, lengths, _, after, capture, written, read, conforms.mpr ?_⟩
  -- the lengths tell all there is to know of the payloads
  intro parcel mem
  have listed : parcel.payload.length ∈ [0, 65493] := by
    rw [← lengths]
    exact List.mem_map_of_mem mem
  simp only [List.mem_cons, List.not_mem_nil, or_false] at listed
  omega

/-- The headers of a frame of 65536 bytes between the default endpoints. -/
def longHeaders : Bytes :=
  [0x02, 0x00, 0x00, 0x00, 0x00, 0x01, 0x00, 0x11, 0x22, 0x33, 0x44, 0x55, 0x08, 0x00,
    0x45, 0x00, 0xFF, 0xF2, 0x00, 0x00, 0x40, 0x00, 0x40, 0x11, 0x00, 0x00, 0xC0, 0xA8,
    0x45, 0x01, 0xC0, 0xA8, 0x45, 0x02, 0xD4, 0x31, 0x1F, 0x90, 0xFF, 0xDE, 0x00, 0x00]

/-- Whatever it is made of, a payload of 65494 bytes is taken without a fault, and its record is
longer than the header of the file says. -/
theorem not_conforms_of_length {payload : Bytes} (payload_length : payload.length = 65494) :
    Frame.build .default .zero payload 0 = .ok ⟨longHeaders ++ payload⟩ ∧
      ∃ result after capture,
        writeAll Bounded.memory 0 [longHeaders ++ payload] = (.ok result, after) ∧
        read? (contents after) = some capture ∧
        capture.records.map StoredFrame.included = [65536] ∧
        snapLengthAt capture.header = 65535 ∧ ¬capture.Conforms := by
  -- the length field of the headers is the only one that depends on the payload
  have built : Frame.build .default .zero payload 0 = .ok ⟨longHeaders ++ payload⟩ := by
    rw [Frame.build_eq_layout (by rw [payload_length]; decide), Frame.bytesOf, Frame.sums,
      Frame.layout, payload_length]
    rfl
  have frame_length : (longHeaders ++ payload).length = 65536 := by
    rw [List.length_append, payload_length, show longHeaders.length = 42 from rfl]
  have short : ∀ frame ∈ [longHeaders ++ payload], frame.length < 2 ^ 32 := by
    intro frame mem
    rw [List.mem_singleton.mp mem, frame_length]
    decide
  obtain ⟨after, written⟩ := writeAll_of_accepting Bounded.accepting_memory short
    (show 1 ≤ Timestamp.room 0 by decide)
  obtain ⟨-, -, held⟩ := eq_totals_of_writeAll short written
  refine ⟨built, _, after, ⟨fileHeader, storedFrom 0 0 [longHeaders ++ payload]⟩, written, ?_, ?_,
    snapLengthAt_fileHeader, ?_⟩
  · rw [held]
    exact read?_image 0 short
  · show [UInt32.ofNat (longHeaders ++ payload).length] = [65536]
    rw [frame_length]
    rfl
  · intro conforms
    have le := (conforms_read_iff 0 short).mp conforms _ List.mem_cons_self
    rw [frame_length] at le
    omega

/-- The headers of such a frame, again and again, as the payload behind them. -/
theorem exceeds_snapLength :
    let payload := (List.replicate 1560 longHeaders).flatten.take 65494
    Frame.build .default .zero payload 0 = .ok ⟨longHeaders ++ payload⟩ ∧
      ∃ result after capture,
        writeAll Bounded.memory 0 [longHeaders ++ payload] = (.ok result, after) ∧
        read? (contents after) = some capture ∧
        capture.records.map StoredFrame.included = [65536] ∧
        snapLengthAt capture.header = 65535 ∧ ¬capture.Conforms := by
  have payload_length : ((List.replicate 1560 longHeaders).flatten.take 65494).length = 65494 := by
    rw [List.length_take, List.length_flatten, List.map_replicate, List.sum_replicate_nat]
    decide
  exact not_conforms_of_length payload_length

end SwapCapture.Pcap
