/-
Ethernet frames that carry a payload over UDP and IPv4.

    bytes  0..14   Ethernet header: destination, source, type
    bytes 14..34   IPv4 header without options
    bytes 34..42   UDP header
    bytes 42..     payload

All header fields are in network order, and all lengths follow from the payload alone.

* `Frame.unsummed` — the frame of a payload without checksums;
* `Frame.withSums?` — both checksums patched into a frame, unless a sum stops;
* `Frame.isSome_withSums?_unsummed` — none does where the payload is short enough;
* `Frame.build` — the frame of a payload, refused where its length would not fit in 16 bits;
* `Frame.length_of_build` — a frame is 42 bytes longer than its payload.
-/
import SwapCapture.Net.Checksum

namespace SwapCapture

open Bytes

inductive FrameFault where
  | payloadTooLarge (length limit : Nat)
deriving DecidableEq, Repr

def FrameFault.message : FrameFault → String
  | .payloadTooLarge length limit =>
    s!"payload of {length} bytes exceeds the IPv4 limit of {limit}"

structure Frame where
  bytes : Bytes
deriving DecidableEq, Repr

namespace Frame

def ethernetSize : Nat := 14

def ipv4Size : Nat := 20

def udpSize : Nat := 8

/-- The length of everything in front of the payload. -/
def headersSize : Nat := ethernetSize + ipv4Size + udpSize

/-- The longest payload whose IPv4 length fits in 16 bits; `ethernetSize` does not count here. -/
def maxPayload : Nat := 65535 - ipv4Size - udpSize

def etherTypeIpv4 : UInt16 := 0x0800

def ipv4ChecksumOffset : Nat := 24

def udpChecksumOffset : Nat := 40

def ethernetHeader (ends : Endpoints) : Bytes :=
  ends.destinationMac.octets ++ ends.sourceMac.octets ++ be16 etherTypeIpv4

/-- The IPv4 header in front of `length` bytes of UDP: version 4 with five words, no service,
not to be fragmented, 64 hops.  The checksum is zero. -/
def ipv4Header (ends : Endpoints) (identification length : UInt16) : Bytes :=
  [0x45, 0] ++ be16 (20 + length) ++ be16 identification ++ be16 0x4000
    ++ [64, Checksum.udpProtocol] ++ be16 0 ++ ends.sourceIp.octets ++ ends.destinationIp.octets

/-- The UDP header of a segment of `length` bytes.  The checksum is zero. -/
def udpHeader (ends : Endpoints) (length : UInt16) : Bytes :=
  be16 ends.sourcePort ++ be16 ends.destinationPort ++ be16 length ++ be16 0

/-- The frame of `payload` with both checksum fields zero. -/
def unsummed (ends : Endpoints) (identification : UInt16) (payload : Bytes) : Bytes :=
  let length := UInt16.ofNat (udpSize + payload.length)
  ethernetHeader ends ++ ipv4Header ends identification length ++ udpHeader ends length ++ payload

/-- The IPv4 checksum that belongs into `frame`, whose field for it is zero. -/
def ipv4Sum? (frame : Bytes) : Option UInt16 :=
  Checksum.internet? ((frame.drop ethernetSize).take ipv4Size)

/-- The UDP checksum that belongs into `frame`, whose field for it is zero. -/
def udpSum? (ends : Endpoints) (frame : Bytes) : Option UInt16 :=
  Checksum.udp? ends.sourceIp ends.destinationIp (frame.drop (ethernetSize + ipv4Size))

/-- `frame` with both checksum fields filled in. -/
def withSums? (ends : Endpoints) (frame : Bytes) : Option Bytes := do
  let summed ← overwrite16? frame ipv4ChecksumOffset (← ipv4Sum? frame)
  overwrite16? summed udpChecksumOffset (← udpSum? ends summed)

theorem length_unsummed (ends : Endpoints) (identification : UInt16) (payload : Bytes) :
    (unsummed ends identification payload).length = headersSize + payload.length := by
  simp [unsummed, ethernetHeader, ipv4Header, udpHeader, headersSize, ethernetSize, ipv4Size,
    udpSize]
  omega

theorem isSome_ipv4Sum? (frame : Bytes) : (ipv4Sum? frame).isSome := by
  apply Checksum.isSome_internet?
  rw [List.length_take, ipv4Size]
  omega

theorem isSome_udpSum? (ends : Endpoints) {frame : Bytes}
    (short : frame.length ≤ headersSize + maxPayload) : (udpSum? ends frame).isSome := by
  have short : frame.length ≤ 65549 := short
  apply Checksum.isSome_udp?
  rw [List.length_drop, ethernetSize, ipv4Size]
  omega

/-- Neither sum of an `unsummed` frame stops if its payload is short enough, and both fields lie
within it. -/
theorem isSome_withSums?_unsummed (ends : Endpoints) (identification : UInt16) {payload : Bytes}
    (small : payload.length ≤ maxPayload) :
    (withSums? ends (unsummed ends identification payload)).isSome := by
  have length_eq := length_unsummed ends identification payload
  -- only the length of the frame matters to the sums and to the writes
  generalize unsummed ends identification payload = frame at length_eq
  have length_eq : frame.length = 42 + payload.length := length_eq
  obtain ⟨ipv4Sum, ipv4_eq⟩ := Option.isSome_iff_exists.mp (isSome_ipv4Sum? frame)
  obtain ⟨summed, summed_eq⟩ : ∃ summed,
      overwrite16? frame ipv4ChecksumOffset ipv4Sum = some summed := by
    apply Option.isSome_iff_exists.mp (isSome_overwrite? _)
    rw [length_be16, ipv4ChecksumOffset]
    omega
  have summed_length : summed.length = frame.length := length_of_overwrite? summed_eq
  have short : summed.length ≤ headersSize + maxPayload := by
    rw [summed_length, length_eq]
    exact Nat.add_le_add_left small 42
  obtain ⟨udpSum, udp_eq⟩ := Option.isSome_iff_exists.mp (isSome_udpSum? ends short)
  simp only [withSums?, ipv4_eq, summed_eq, udp_eq, Option.bind_eq_bind, Option.bind_some]
  apply isSome_overwrite?
  rw [length_be16, udpChecksumOffset]
  omega

def build (ends : Endpoints) (policy : ChecksumPolicy) (payload : Bytes)
    (identification : UInt16) : Except FrameFault Frame :=
  if large : payload.length > maxPayload then
    .error (.payloadTooLarge payload.length maxPayload)
  else
    let frame := unsummed ends identification payload
    match policy with
    | .zero => .ok ⟨frame⟩
    | .compute =>
      .ok ⟨(withSums? ends frame).get
        (isSome_withSums?_unsummed ends identification (Nat.not_lt.mp large))⟩

def payload (frame : Frame) : Bytes := frame.bytes.drop headersSize

def size (frame : Frame) : Nat := frame.bytes.length

def isEmpty (frame : Frame) : Bool := frame.bytes.isEmpty

theorem length_of_withSums? {ends : Endpoints} {frame summed : Bytes}
    (h : withSums? ends frame = some summed) : summed.length = frame.length := by
  simp only [withSums?, Option.bind_eq_bind, Option.bind_eq_some_iff] at h
  obtain ⟨_, -, _, first, _, -, second⟩ := h
  exact (length_of_overwrite? second).trans (length_of_overwrite? first)

theorem length_of_build {ends : Endpoints} {policy : ChecksumPolicy} {payload : Bytes}
    {identification : UInt16} {frame : Frame}
    (h : build ends policy payload identification = .ok frame) :
    frame.size = headersSize + payload.length := by
  unfold build at h
  split at h
  · cases h
  -- filling in the checksums changes no length
  · rw [← length_unsummed ends identification payload]
    cases policy with
    | zero =>
      cases h
      rfl
    | compute =>
      cases h
      exact length_of_withSums? (Option.some_get _).symm

end Frame

end SwapCapture
