/-
A receiver's check of the checksums in a frame.

A receiver sums the words of a header as they stand, the checksum among them, and expects a full
word.  For UDP it puts the pseudo-header in front, whose parts it takes from the frame as well.
Both checks ask whether a sum and the complement of its reduction make a full word, and the
checksum lies on a word boundary, so it is one summand among the others (`wordSum_patch`):

* `ipv4Verifies_layout`, `udpVerifies_layout` — when a frame passes these checks;
* `verifies_of_compute` — every frame with computed checksums passes them, no sum stops on the way,
  and without checksums it is the same frame with four zeros.
-/
import SwapCapture.Proofs.Net.Layout
import SwapCapture.Proofs.Net.OnesComplement

namespace SwapCapture.Frame

open Bytes Checksum

/-- The IPv4 header of `frame` passes the check of a receiver. -/
def Ipv4Verifies (frame : Bytes) : Prop := endAround (wordSum ((frame.drop 14).take 20)) = 0xFFFF

/-- The pseudo-header that a receiver reads off `frame`: both addresses, the protocol and the length
of the segment. -/
def receivedPseudoHeader (frame : Bytes) : Bytes :=
  (frame.drop 26).take 8 ++ [0, 17] ++ (frame.drop 38).take 2

/-- The UDP segment of `frame` passes the check of a receiver. -/
def UdpVerifies (frame : Bytes) : Prop :=
  endAround (wordSum (receivedPseudoHeader frame ++ frame.drop 34)) = 0xFFFF

/-! ### The checksum as a summand -/

/-- A word at an even offset counts as itself. -/
theorem wordSum_patch {front : Bytes} (even : front.length % 2 = 0) (v : UInt16) (back : Bytes) :
    wordSum (front ++ (be16 v ++ back)) = wordSum (front ++ (be16 0 ++ back)) + v.toNat := by
  have word_even (w : UInt16) : (be16 w).length % 2 = 0 := by rw [length_be16]
  rw [wordSum_append even, wordSum_append even, wordSum_append (word_even v),
    wordSum_append (word_even 0), wordSum_be16, wordSum_be16]
  show _ = wordSum front + (0 + wordSum back) + v.toNat
  omega

variable (ends : Endpoints) (identification : UInt16)

theorem wordSum_ipv4HeaderWith (length sum : UInt16) :
    wordSum (ipv4HeaderWith ends identification length sum)
      = wordSum (ipv4HeaderWith ends identification length 0) + sum.toNat := by
  let front : Bytes := [0x45, 0] ++ be16 (20 + length) ++ be16 identification ++ be16 0x4000
    ++ [64, udpProtocol]
  have split (v : UInt16) : ipv4HeaderWith ends identification length v
      = front ++ (be16 v ++ (ends.sourceIp.octets ++ ends.destinationIp.octets)) := rfl
  have front_length : front.length = 10 := rfl
  rw [split sum, split 0, wordSum_patch (by rw [front_length])]

theorem wordSum_covered_udpHeaderWith (length sum : UInt16) (payload : Bytes) :
    wordSum (covered ends.sourceIp ends.destinationIp (udpHeaderWith ends length sum ++ payload))
      = wordSum (covered ends.sourceIp ends.destinationIp (udpHeaderWith ends length 0 ++ payload))
        + sum.toNat := by
  let front : Bytes := be16 ends.sourcePort ++ be16 ends.destinationPort ++ be16 length
  have split (v : UInt16) :
      udpHeaderWith ends length v ++ payload = front ++ (be16 v ++ payload) := by
    rw [udpHeaderWith, List.append_assoc]
  have front_length : front.length = 6 := rfl
  -- the length in the pseudo-header does not depend on the checksum
  have same_length : (front ++ (be16 sum ++ payload)).length
      = (front ++ (be16 0 ++ payload)).length := rfl
  rw [split sum, split 0, wordSum_covered, wordSum_covered, wordSum_patch (by rw [front_length]),
    same_length, Nat.add_assoc]

theorem length_udpPart (length sum : UInt16) (payload : Bytes) :
    (udpHeaderWith ends length sum ++ payload).length = 8 + payload.length := by
  rw [List.length_append, Nat.add_right_cancel_iff]
  rfl

theorem length_udpPart_le (length sum : UInt16) {payload : Bytes}
    (small : payload.length ≤ maxPayload) :
    (udpHeaderWith ends length sum ++ payload).length ≤ 65535 := by
  have small : payload.length ≤ 65507 := small
  rw [length_udpPart]
  omega

/-! ### The parts of a frame -/

theorem ipv4Part_layout (ipv4Sum udpSum : UInt16) (payload : Bytes) :
    ((layout ends identification ipv4Sum udpSum payload).drop 14).take 20
      = ipv4HeaderWith ends identification (.ofNat (udpSize + payload.length)) ipv4Sum := rfl

theorem udpPart_layout (ipv4Sum udpSum : UInt16) (payload : Bytes) :
    (layout ends identification ipv4Sum udpSum payload).drop 34
      = udpHeaderWith ends (.ofNat (udpSize + payload.length)) udpSum ++ payload := rfl

/-- The pseudo-header that is received is the `pseudoHeader` that was summed up. -/
theorem receivedPseudoHeader_layout (ipv4Sum udpSum : UInt16) (payload : Bytes) :
    receivedPseudoHeader (layout ends identification ipv4Sum udpSum payload)
        ++ (layout ends identification ipv4Sum udpSum payload).drop 34
      = covered ends.sourceIp ends.destinationIp
        (udpHeaderWith ends (.ofNat (udpSize + payload.length)) udpSum ++ payload) := by
  rw [covered, length_udpPart, udpPart_layout]
  rfl

/-! ### Both checks -/

/-- An IPv4 header passes with the complement of the sum of its other words. -/
theorem ipv4Verifies_layout (ipv4Sum udpSum : UInt16) (payload : Bytes)
    (h : internet? (ipv4HeaderWith ends identification (.ofNat (udpSize + payload.length)) 0)
      = some ipv4Sum) :
    Ipv4Verifies (layout ends identification ipv4Sum udpSum payload) := by
  rw [Ipv4Verifies, ipv4Part_layout, wordSum_ipv4HeaderWith, (internet?_eq_some_iff.mp h).2]
  exact endAround_add_complement _

/-- A UDP segment passes with that complement, and with a full word where it would be zero. -/
theorem udpVerifies_layout (ipv4Sum udpSum : UInt16) {payload : Bytes}
    (small : payload.length ≤ maxPayload)
    (h : udp? ends.sourceIp ends.destinationIp
      (udpHeaderWith ends (.ofNat (udpSize + payload.length)) 0 ++ payload) = some udpSum) :
    UdpVerifies (layout ends identification ipv4Sum udpSum payload) := by
  rw [UdpVerifies, receivedPseudoHeader_layout, wordSum_covered_udpHeaderWith]
  apply endAround_add_nonzero
  exact toNat_of_udp? (length_udpPart_le _ _ _ small) h

/-- A segment that is not too long has a checksum other than zero. -/
theorem udp?_ne_zero (source destination : Ipv4Address) {segment : Bytes}
    (short : segment.length ≤ 65535) : udp? source destination segment ≠ some 0 := by
  intro zero
  have value := toNat_of_udp? short zero
  rw [show (0 : UInt16).toNat = 0 from rfl] at value
  split at value
  · cases value
  · next nonzero => exact nonzero value.symm

/-- The lengths in the headers of a `layout` do not wrap. -/
theorem lengths_layout (ipv4Sum udpSum : UInt16) {payload : Bytes}
    (small : payload.length ≤ maxPayload) :
    (be16At (layout ends identification ipv4Sum udpSum payload) 16).toNat = 28 + payload.length ∧
      (be16At (layout ends identification ipv4Sum udpSum payload) 38).toNat
        = 8 + payload.length := by
  have udp_length := toNat_udpLength small
  have small : payload.length ≤ 65507 := small
  have total_field : be16At (layout ends identification ipv4Sum udpSum payload) 16
      = 20 + .ofNat (udpSize + payload.length) := be16At_of_take rfl
  have udp_field : be16At (layout ends identification ipv4Sum udpSum payload) 38
      = .ofNat (udpSize + payload.length) := be16At_of_take rfl
  constructor
  · rw [total_field, UInt16.toNat_add, udp_length]
    -- a payload that is short enough leaves room for both headers
    show (20 + (8 + payload.length)) % 2 ^ 16 = _
    omega
  · rw [udp_field]
    exact udp_length

/-- **Computed checksums always verify.**  Whatever the payload, the frame with computed checksums
passes both checks of a receiver and has a UDP checksum other than zero.  The lengths in its headers
are the exact ones, and the checksums are those that `internet?` and `udp?` find in the frame without
checksums, so that no addition stops.  That frame is the same but for four zeros. -/
theorem verifies_of_compute {payload : Bytes} (small : payload.length ≤ 65507) :
    ∃ frame zeroed : Bytes,
      build ends .compute payload identification = .ok ⟨frame⟩ ∧
      build ends .zero payload identification = .ok ⟨zeroed⟩ ∧
      Ipv4Verifies frame ∧ UdpVerifies frame ∧ be16At frame 40 ≠ 0 ∧
      (be16At frame 16).toNat = 28 + payload.length ∧
      (be16At frame 38).toNat = 8 + payload.length ∧
      (zeroed.drop 34).length = 8 + payload.length ∧
      internet? ((zeroed.drop 14).take 20) = some (be16At frame 24) ∧
      udp? ends.sourceIp ends.destinationIp (zeroed.drop 34) = some (be16At frame 40) ∧
      zeroed = (((frame.set 24 0).set 25 0).set 40 0).set 41 0 := by
  have small : payload.length ≤ maxPayload := small
  obtain ⟨ipv4_eq, udp_eq⟩ := sums_compute ends identification small
  let ipv4Sum := (sums ends .compute identification payload).1
  let udpSum := (sums ends .compute identification payload).2
  -- both frames are the same layout, once with the sums and once with zeros in their place
  let frame := layout ends identification ipv4Sum udpSum payload
  let zeroed := layout ends identification 0 0 payload
  have ipv4_found : internet? ((zeroed.drop 14).take 20) = some ipv4Sum := ipv4_eq
  have udp_found : udp? ends.sourceIp ends.destinationIp (zeroed.drop 34) = some udpSum := udp_eq
  have ipv4_field : be16At frame 24 = ipv4Sum := be16At_of_take rfl
  have udp_field : be16At frame 40 = udpSum := be16At_of_take rfl
  have short : (zeroed.drop 34).length ≤ 65535 := length_udpPart_le ends _ 0 small
  obtain ⟨total_length, udp_length⟩ := lengths_layout ends identification ipv4Sum udpSum small
  refine ⟨frame, zeroed, build_eq_layout small, build_eq_layout small,
    ipv4Verifies_layout ends identification ipv4Sum udpSum payload ipv4_found,
    udpVerifies_layout ends identification ipv4Sum udpSum small udp_found, ?_,
    total_length, udp_length, length_udpPart ends _ 0 payload, ?_, ?_, rfl⟩
  · rw [udp_field]
    -- a zero in the field would be a zero of the sum, which there is none of
    intro zero
    rw [zero] at udp_found
    exact udp?_ne_zero _ _ short udp_found
  · rw [ipv4_field, ipv4_found]
  · rw [udp_field, udp_found]

/-- A payload of three bytes whose UDP words add up to a multiple of 65535, so that the complement
would be zero. -/
theorem verifies_of_compute_fullWord :
    ∃ frame, build .default .compute [0x55, 0xC1, 0xAB] 0 = .ok ⟨frame⟩ ∧
      Ipv4Verifies frame ∧ UdpVerifies frame ∧ be16At frame 40 = 0xFFFF := by
  have small : ([0x55, 0xC1, 0xAB] : Bytes).length ≤ 65507 := by decide
  obtain ⟨frame, zeroed, built, unsummed, ipv4, udp, -, -, -, -, -, checked, -⟩ :=
    verifies_of_compute .default 0 small
  cases unsummed
  -- the other words are reduced to a full word, whose complement is zero
  have reduced : endAround (wordSum (covered Endpoints.default.sourceIp
      Endpoints.default.destinationIp
      ((Frame.unsummed .default 0 [0x55, 0xC1, 0xAB]).drop 34))) = 65535 :=
    endAround_eq_iff.mpr (by decide)
  have short : ((Frame.unsummed .default 0 [0x55, 0xC1, 0xAB]).drop 34).length ≤ 65535 := by decide
  have value := toNat_of_udp? short checked
  rw [reduced] at value
  exact ⟨frame, built, ipv4, udp, UInt16.toNat_inj.mp value⟩

end SwapCapture.Frame
