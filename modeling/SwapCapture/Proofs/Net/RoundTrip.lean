/-
What a receiver can tell from a frame.

A receiver is given nothing but the bytes.  It finds everything that the frame was built from, the
lengths among it as plain numbers, so two frames with the same bytes were built from the same things:

* `Packet.Carries` — a packet says what it is to say about endpoints, identification and payload;
* `Packet.Carries.unique` — a packet says this of no others;
* `build_eq_error_iff` — the payloads that have no frame;
* `carries_of_build` — every other payload is received as it was sent, and from one frame only.
-/
import SwapCapture.Proofs.Net.Layout

namespace SwapCapture.Frame

open Bytes

/-- `packet` goes from one endpoint to the other as a single UDP datagram over IPv4, has the
`identification` and holds `payload` and nothing behind it. -/
structure Packet.Carries (packet : Packet) (ends : Endpoints) (identification : UInt16)
    (payload : Bytes) : Prop where
  destinationMac : packet.destinationMac = ends.destinationMac
  sourceMac : packet.sourceMac = ends.sourceMac
  etherType : packet.etherType = 0x0800
  version : packet.version = 4
  headerWords : packet.headerWords = 5
  totalLength : packet.totalLength.toNat = 28 + payload.length
  identification : packet.identification = identification
  dontFragment : packet.dontFragment = true
  fragmentOffset : packet.fragmentOffset = 0
  hops : packet.hops = 64
  protocol : packet.protocol = 17
  sourceIp : packet.sourceIp = ends.sourceIp
  destinationIp : packet.destinationIp = ends.destinationIp
  sourcePort : packet.sourcePort = ends.sourcePort
  destinationPort : packet.destinationPort = ends.destinationPort
  udpLength : packet.udpLength.toNat = 8 + payload.length
  payload : packet.payload = payload
  trailer : packet.trailer = []

/-- What a packet `Carries` can be read off it. -/
theorem Packet.Carries.unique {packet : Packet} {ends ends' : Endpoints}
    {identification identification' : UInt16} {payload payload' : Bytes}
    (h : packet.Carries ends identification payload)
    (h' : packet.Carries ends' identification' payload') :
    ends = ends' ∧ identification = identification' ∧ payload = payload' := by
  refine ⟨?_, h.identification.symm.trans h'.identification, h.payload.symm.trans h'.payload⟩
  cases ends
  cases ends'
  rw [Endpoints.mk.injEq]
  exact ⟨h.sourceMac.symm.trans h'.sourceMac, h.destinationMac.symm.trans h'.destinationMac,
    h.sourceIp.symm.trans h'.sourceIp, h.destinationIp.symm.trans h'.destinationIp,
    h.sourcePort.symm.trans h'.sourcePort, h.destinationPort.symm.trans h'.destinationPort⟩

variable {ends : Endpoints} {policy : ChecksumPolicy} {identification : UInt16} {payload : Bytes}

/-- The lengths in a packet are the exact ones as long as `payload` is not too long. -/
theorem carries_packetOf (ends : Endpoints) (identification : UInt16)
    (small : payload.length ≤ maxPayload) :
    (packetOf ends identification payload).Carries ends identification payload := by
  have small : payload.length ≤ 65507 := small
  constructor
  case totalLength => exact UInt16.toNat_ofNat_of_lt' (by show 28 + payload.length < 2 ^ 16; omega)
  case udpLength => exact UInt16.toNat_ofNat_of_lt' (by show 8 + payload.length < 2 ^ 16; omega)
  all_goals rfl

/-- A payload has no frame just if it is too long, and `payloadTooLarge` says how long it is. -/
theorem build_eq_error_iff {fault : FrameFault} :
    build ends policy payload identification = .error fault ↔
      maxPayload < payload.length ∧ fault = .payloadTooLarge payload.length maxPayload := by
  by_cases long : maxPayload < payload.length
  · rw [build, dif_pos long]
    constructor
    · intro refused
      cases refused
      exact ⟨long, rfl⟩
    · rintro ⟨-, rfl⟩
      rfl
  · rw [build_eq_layout (Nat.not_lt.mp long)]
    constructor
    · intro refused
      cases refused
    · rintro ⟨too_long, -⟩
      exact absurd too_long long

/-- A frame that was built is received as what it was built from. -/
theorem parse?_of_build {frame : Frame}
    (h : build ends policy payload identification = .ok frame) :
    payload.length ≤ maxPayload ∧
      parse? frame.bytes = some (packetOf ends identification payload) := by
  by_cases small : payload.length ≤ maxPayload
  · rw [build_eq_layout small] at h
    cases h
    exact ⟨small, parse?_layout ends identification _ _ small⟩
  · have refused : build ends policy payload identification
        = .error (.payloadTooLarge payload.length maxPayload) :=
      build_eq_error_iff.mpr ⟨Nat.not_le.mp small, rfl⟩
    rw [refused] at h
    cases h

/-- The bytes behind the headers of a frame are its payload. -/
theorem payload_of_build {frame : Frame}
    (h : build ends policy payload identification = .ok frame) : frame.payload = payload := by
  rw [build_eq_layout (parse?_of_build h).1] at h
  cases h
  rfl

/-- **What is sent is received.** `Frame.build` refuses a payload just if it has more than 65507
bytes.  Any other one has a frame that is 42 bytes longer, in which `parse?` finds the payload and
everything else that the frame was built from, and no length wraps.  Two frames of the same checksum
policy are therefore the same only if they were built from the same endpoints, identification and
payload. -/
theorem carries_of_build (policy : ChecksumPolicy) (ends : Endpoints) (identification : UInt16)
    (payload : Bytes) :
    (∀ fault, build ends policy payload identification = .error fault ↔
      65507 < payload.length ∧ fault = .payloadTooLarge payload.length 65507) ∧
    (payload.length ≤ 65507 → ∃ frame packet,
      build ends policy payload identification = .ok frame ∧
      frame.size = 42 + payload.length ∧ frame.payload = payload ∧
      parse? frame.bytes = some packet ∧ packet.Carries ends identification payload) ∧
    (∀ ends' identification' payload' frame,
      build ends policy payload identification = .ok frame →
      build ends' policy payload' identification' = .ok frame →
      ends = ends' ∧ identification = identification' ∧ payload = payload') := by
  refine ⟨fun fault => build_eq_error_iff, ?_, ?_⟩
  · intro small
    have built : build ends policy payload identification = .ok _ := build_eq_layout small
    exact ⟨_, _, built, length_of_build built, payload_of_build built, (parse?_of_build built).2,
      carries_packetOf ends identification small⟩
  · intro ends' identification' payload' frame built built'
    obtain ⟨small, parsed⟩ := parse?_of_build built
    obtain ⟨small', parsed'⟩ := parse?_of_build built'
    -- one receiver has read both frames, so the packet is the same
    have same : packetOf ends identification payload = packetOf ends' identification' payload' :=
      Option.some.inj (parsed.symm.trans parsed')
    have carries := carries_packetOf ends identification small
    rw [same] at carries
    exact carries.unique (carries_packetOf ends' identification' small')

/-- The longest payload that has a frame, and one byte more. -/
theorem carries_of_build_longest :
    (∃ frame packet, build .default .compute (List.replicate 65507 0xFF) 0xFFFF = .ok frame ∧
      frame.size = 65549 ∧ parse? frame.bytes = some packet ∧ packet.totalLength = 65535 ∧
      packet.payload = List.replicate 65507 0xFF) ∧
    build .default .compute (List.replicate 65508 0xFF) 0xFFFF
      = .error (.payloadTooLarge 65508 65507) := by
  have longest : (List.replicate 65507 (0xFF : UInt8)).length = 65507 := List.length_replicate
  have longer : (List.replicate 65508 (0xFF : UInt8)).length = 65508 := List.length_replicate
  obtain ⟨-, received, -⟩ :=
    carries_of_build .compute .default 0xFFFF (List.replicate 65507 0xFF)
  obtain ⟨refused, -⟩ := carries_of_build .compute .default 0xFFFF (List.replicate 65508 0xFF)
  obtain ⟨frame, packet, built, size_eq, -, parsed, carries⟩ := received (Nat.le_of_eq longest)
  -- the length in the header is as large as it can be
  have total := carries.totalLength
  rw [longest] at size_eq total
  rw [longer] at refused
  refine ⟨⟨frame, packet, built, size_eq, parsed, UInt16.toNat_inj.mp total, carries.payload⟩, ?_⟩
  exact (refused _).mpr ⟨by decide, rfl⟩

end SwapCapture.Frame
