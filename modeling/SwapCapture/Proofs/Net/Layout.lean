/-
The bytes of a frame, with its checksums as parameters.

Patching two checksums into a frame is the same as having written them in the first place, so a
frame is a concatenation of headers, whatever its checksum policy (`build_eq_layout`).  Its fields
can then be read off one by one:

* `parse?` — what a receiver makes of a frame, from its bytes alone;
* `parse?_layout` — a receiver finds exactly what the frame was built from.
-/
import SwapCapture.Net.Frame
import SwapCapture.Proofs.Bytes.Placing
import SwapCapture.Proofs.Bytes.Reading

namespace SwapCapture.Frame

open Bytes

/-! ### The layout -/

/-- An IPv4 header whose checksum is `sum`. -/
def ipv4HeaderWith (ends : Endpoints) (identification length sum : UInt16) : Bytes :=
  [0x45, 0] ++ be16 (20 + length) ++ be16 identification ++ be16 0x4000
    ++ [64, Checksum.udpProtocol] ++ be16 sum ++ ends.sourceIp.octets ++ ends.destinationIp.octets

/-- A UDP header whose checksum is `sum`. -/
def udpHeaderWith (ends : Endpoints) (length sum : UInt16) : Bytes :=
  be16 ends.sourcePort ++ be16 ends.destinationPort ++ be16 length ++ be16 sum

/-- The frame of `payload` with given checksums. -/
def layout (ends : Endpoints) (identification ipv4Sum udpSum : UInt16) (payload : Bytes) : Bytes :=
  let length := UInt16.ofNat (udpSize + payload.length)
  ethernetHeader ends ++ (ipv4HeaderWith ends identification length ipv4Sum
    ++ (udpHeaderWith ends length udpSum ++ payload))

def ipWord (ip : Ipv4Address) : UInt32 := be32At ip.octets 0

/-- **A frame is a buffer of zeros after all its fields have been written**, each at its offset and
the addresses of the IPv4 header as an `ipWord`.  Nothing is written over either checksum field. -/
theorem overwriteAll?_unsummed (ends : Endpoints) (identification : UInt16) (payload : Bytes) :
    let length := UInt16.ofNat (udpSize + payload.length)
    overwriteAll? (List.replicate (headersSize + payload.length) 0)
        [(0, ends.destinationMac.octets), (6, ends.sourceMac.octets), (12, be16 etherTypeIpv4),
          (14, [0x45]), (15, [0]), (16, be16 (20 + length)), (18, be16 identification),
          (20, be16 0x4000), (22, [64]), (23, [Checksum.udpProtocol]),
          (26, be32 (ipWord ends.sourceIp)), (30, be32 (ipWord ends.destinationIp)),
          (34, be16 ends.sourcePort), (36, be16 ends.destinationPort), (38, be16 length),
          (42, payload)]
      = some (unsummed ends identification payload) := by
  intro length
  have word (ip : Ipv4Address) : be32 (ipWord ip) = ip.octets := be32_be32At ip.a ip.b ip.c ip.d []
  -- the same fields with the gaps between them, which are the two checksum fields
  let fields : List (Nat × Bytes) :=
    [(0, ends.destinationMac.octets), (0, ends.sourceMac.octets), (0, be16 etherTypeIpv4),
      (0, [0x45]), (0, [0]), (0, be16 (20 + length)), (0, be16 identification), (0, be16 0x4000),
      (0, [64]), (0, [Checksum.udpProtocol]), (2, ends.sourceIp.octets),
      (0, ends.destinationIp.octets), (0, be16 ends.sourcePort), (0, be16 ends.destinationPort),
      (0, be16 length), (2, payload)]
  have together : gapped fields = unsummed ends identification payload := by
    have no_sum : be16 0 = List.replicate 2 0 := rfl
    simp only [fields, gapped, unsummed, ethernetHeader, ipv4Header, udpHeader, no_sum,
      List.replicate_zero, List.nil_append, List.append_nil, List.append_assoc, List.cons_append]
    rfl
  have written := overwriteAll?_placed [] fields 0
  rw [together, length_unsummed] at written
  rw [word, word]
  exact written.trans (by rw [List.nil_append, List.replicate_zero, List.append_nil])

/-- The checksums that `policy` puts into the frame of `payload`: those of the `layout` in which
both are zero.  Neither sum stops for a payload that has a frame (`sums_compute`). -/
def sums (ends : Endpoints) (policy : ChecksumPolicy) (identification : UInt16)
    (payload : Bytes) : UInt16 × UInt16 :=
  match policy with
  | .zero => (0, 0)
  | .compute =>
    ((ipv4Sum? (layout ends identification 0 0 payload)).getD 0,
      (udpSum? ends (layout ends identification 0 0 payload)).getD 0)

/-- The bytes of the frame of `payload`: its `layout` with `sums` in the checksum fields. -/
def bytesOf (ends : Endpoints) (policy : ChecksumPolicy) (identification : UInt16)
    (payload : Bytes) : Bytes :=
  let sums := sums ends policy identification payload
  layout ends identification sums.1 sums.2 payload

theorem unsummed_eq_layout (ends : Endpoints) (identification : UInt16) (payload : Bytes) :
    unsummed ends identification payload = layout ends identification 0 0 payload := rfl

@[simp] theorem length_layout (ends : Endpoints) (identification ipv4Sum udpSum : UInt16)
    (payload : Bytes) :
    (layout ends identification ipv4Sum udpSum payload).length = 42 + payload.length := by
  show payload.length + 42 = 42 + payload.length
  exact Nat.add_comm _ _

theorem overwrite16?_layout_ipv4Sum (ends : Endpoints) (identification ipv4Sum udpSum : UInt16)
    (payload : Bytes) (v : UInt16) :
    overwrite16? (layout ends identification ipv4Sum udpSum payload) ipv4ChecksumOffset v
      = some (layout ends identification v udpSum payload) := by
  have fits : ipv4ChecksumOffset + (be16 v).length
      ≤ (layout ends identification ipv4Sum udpSum payload).length := by
    rw [length_layout, length_be16, ipv4ChecksumOffset]
    omega
  -- everything in front of the field has a known length, so the patch computes
  rw [overwrite16?, overwrite?, if_pos fits]
  rfl

theorem overwrite16?_layout_udpSum (ends : Endpoints) (identification ipv4Sum udpSum : UInt16)
    (payload : Bytes) (v : UInt16) :
    overwrite16? (layout ends identification ipv4Sum udpSum payload) udpChecksumOffset v
      = some (layout ends identification ipv4Sum v payload) := by
  have fits : udpChecksumOffset + (be16 v).length
      ≤ (layout ends identification ipv4Sum udpSum payload).length := by
    rw [length_layout, length_be16, udpChecksumOffset]
    omega
  rw [overwrite16?, overwrite?, if_pos fits]
  rfl

/-- The IPv4 checksum is not part of what the UDP checksum covers. -/
theorem udpSum?_layout (ends : Endpoints) (identification ipv4Sum udpSum : UInt16)
    (payload : Bytes) :
    udpSum? ends (layout ends identification ipv4Sum udpSum payload)
      = udpSum? ends (layout ends identification 0 udpSum payload) := rfl

theorem sums_compute (ends : Endpoints) (identification : UInt16) {payload : Bytes}
    (small : payload.length ≤ maxPayload) :
    ipv4Sum? (layout ends identification 0 0 payload)
        = some (sums ends .compute identification payload).1 ∧
      udpSum? ends (layout ends identification 0 0 payload)
        = some (sums ends .compute identification payload).2 := by
  have short : (layout ends identification 0 0 payload).length ≤ headersSize + maxPayload := by
    rw [length_layout]
    exact Nat.add_le_add_left small 42
  obtain ⟨ipv4Sum, ipv4_eq⟩ := Option.isSome_iff_exists.mp
    (isSome_ipv4Sum? (layout ends identification 0 0 payload))
  obtain ⟨udpSum, udp_eq⟩ := Option.isSome_iff_exists.mp (isSome_udpSum? ends short)
  simp only [sums, ipv4_eq, udp_eq, Option.getD_some, and_self]

theorem withSums?_unsummed (ends : Endpoints) (identification : UInt16) {payload : Bytes}
    (small : payload.length ≤ maxPayload) :
    withSums? ends (unsummed ends identification payload)
      = some (bytesOf ends .compute identification payload) := by
  obtain ⟨ipv4_eq, udp_eq⟩ := sums_compute ends identification small
  simp only [unsummed_eq_layout, withSums?, ipv4_eq, overwrite16?_layout_ipv4Sum, udpSum?_layout,
    udp_eq, overwrite16?_layout_udpSum, Option.bind_eq_bind, Option.bind_some, bytesOf]

/-- Every payload that is short enough has its frame, and `bytesOf` are the bytes of that. -/
theorem build_eq_layout {ends : Endpoints} {policy : ChecksumPolicy} {payload : Bytes}
    {identification : UInt16} (small : payload.length ≤ maxPayload) :
    build ends policy payload identification
      = .ok ⟨bytesOf ends policy identification payload⟩ := by
  rw [build, dif_neg (Nat.not_lt.mpr small)]
  cases policy with
  | zero => rfl
  | compute => simp only [withSums?_unsummed ends identification small, Option.get_some]

/-- The length in the UDP header does not wrap. -/
theorem toNat_udpLength {n : Nat} (small : n ≤ maxPayload) :
    (UInt16.ofNat (udpSize + n)).toNat = 8 + n := by
  have small : n ≤ 65507 := small
  exact UInt16.toNat_ofNat_of_lt' (by show 8 + n < 2 ^ 16; omega)

/-! ### A receiver -/

/-- What a receiver makes of a frame.  The length of the IPv4 header is given in words of four
bytes, and `trailer` is what lies behind the payload. -/
structure Packet where
  destinationMac : MacAddress
  sourceMac : MacAddress
  etherType : UInt16
  version : Nat
  headerWords : Nat
  totalLength : UInt16
  identification : UInt16
  dontFragment : Bool
  fragmentOffset : Nat
  hops : UInt8
  protocol : UInt8
  sourceIp : Ipv4Address
  destinationIp : Ipv4Address
  sourcePort : UInt16
  destinationPort : UInt16
  udpLength : UInt16
  payload : Bytes
  trailer : Bytes
deriving DecidableEq, Repr

def macAt (bytes : Bytes) (offset : Nat) : MacAddress :=
  ⟨byteAt bytes offset, byteAt bytes (offset + 1), byteAt bytes (offset + 2),
    byteAt bytes (offset + 3), byteAt bytes (offset + 4), byteAt bytes (offset + 5)⟩

def ipAt (bytes : Bytes) (offset : Nat) : Ipv4Address :=
  ⟨byteAt bytes offset, byteAt bytes (offset + 1), byteAt bytes (offset + 2),
    byteAt bytes (offset + 3)⟩

/-- The packet in `frame`, if its headers are whole and its payload is as long as they say.  The
IPv4 header is as long as its first byte says, and the payload as the UDP header says. -/
def parse? (frame : Bytes) : Option Packet := do
  let (ethernet, datagram) ← cut? 14 frame
  let words := (byteAt datagram 0).toNat % 16
  let (ip, segment) ← cut? (4 * words) datagram
  let (udp, rest) ← cut? 8 segment
  let (payload, trailer) ← cut? ((be16At udp 4).toNat - 8) rest
  pure {
    destinationMac := macAt ethernet 0
    sourceMac := macAt ethernet 6
    etherType := be16At ethernet 12
    version := (byteAt ip 0).toNat / 16
    headerWords := words
    totalLength := be16At ip 2
    identification := be16At ip 4
    dontFragment := (be16At ip 6).toNat / 2 ^ 14 % 2 = 1
    fragmentOffset := (be16At ip 6).toNat % 2 ^ 13
    hops := byteAt ip 8
    protocol := byteAt ip 9
    sourceIp := ipAt ip 12
    destinationIp := ipAt ip 16
    sourcePort := be16At udp 0
    destinationPort := be16At udp 2
    udpLength := be16At udp 4
    payload
    trailer }

/-- The packet that the frame of `payload` is built from. -/
def packetOf (ends : Endpoints) (identification : UInt16) (payload : Bytes) : Packet where
  destinationMac := ends.destinationMac
  sourceMac := ends.sourceMac
  etherType := 0x0800
  version := 4
  headerWords := 5
  totalLength := .ofNat (28 + payload.length)
  identification
  dontFragment := true
  fragmentOffset := 0
  hops := 64
  protocol := 17
  sourceIp := ends.sourceIp
  destinationIp := ends.destinationIp
  sourcePort := ends.sourcePort
  destinationPort := ends.destinationPort
  udpLength := .ofNat (8 + payload.length)
  payload
  trailer := []

theorem fields_ethernetHeader (ends : Endpoints) :
    macAt (ethernetHeader ends) 0 = ends.destinationMac ∧
    macAt (ethernetHeader ends) 6 = ends.sourceMac ∧
    be16At (ethernetHeader ends) 12 = 0x0800 :=
  ⟨rfl, rfl, be16At_of_take rfl⟩

theorem fields_ipv4HeaderWith (ends : Endpoints) (identification length sum : UInt16) :
    byteAt (ipv4HeaderWith ends identification length sum) 0 = 0x45 ∧
    be16At (ipv4HeaderWith ends identification length sum) 2 = 20 + length ∧
    be16At (ipv4HeaderWith ends identification length sum) 4 = identification ∧
    be16At (ipv4HeaderWith ends identification length sum) 6 = 0x4000 ∧
    byteAt (ipv4HeaderWith ends identification length sum) 8 = 64 ∧
    byteAt (ipv4HeaderWith ends identification length sum) 9 = 17 ∧
    ipAt (ipv4HeaderWith ends identification length sum) 12 = ends.sourceIp ∧
    ipAt (ipv4HeaderWith ends identification length sum) 16 = ends.destinationIp :=
  ⟨rfl, be16At_of_take rfl, be16At_of_take rfl, be16At_of_take rfl, rfl, rfl, rfl, rfl⟩

theorem fields_udpHeaderWith (ends : Endpoints) (length sum : UInt16) :
    be16At (udpHeaderWith ends length sum) 0 = ends.sourcePort ∧
    be16At (udpHeaderWith ends length sum) 2 = ends.destinationPort ∧
    be16At (udpHeaderWith ends length sum) 4 = length :=
  ⟨be16At_of_take rfl, be16At_of_take rfl, be16At_of_take rfl⟩

/-- `parse?` finds what the frame was built from, whatever its checksums. -/
theorem parse?_layout (ends : Endpoints) (identification ipv4Sum udpSum : UInt16)
    {payload : Bytes} (small : payload.length ≤ maxPayload) :
    parse? (layout ends identification ipv4Sum udpSum payload)
      = some (packetOf ends identification payload) := by
  have udp_length := toNat_udpLength small
  rw [layout]
  generalize length_eq : UInt16.ofNat (udpSize + payload.length) = length at udp_length
  obtain ⟨dst_mac, src_mac, ether_type⟩ := fields_ethernetHeader ends
  obtain ⟨first, total, ident, flags, hops, protocol, src_ip, dst_ip⟩ :=
    fields_ipv4HeaderWith ends identification length ipv4Sum
  obtain ⟨src_port, dst_port, length_field⟩ := fields_udpHeaderWith ends length udpSum
  have total_eq : 20 + length = UInt16.ofNat (28 + payload.length) := by
    rw [← length_eq]
    show UInt16.ofNat 20 + UInt16.ofNat (8 + payload.length) = _
    rw [← UInt16.ofNat_add, ← Nat.add_assoc]
  -- each header is cut off by its length, the last one by what it says itself
  have ethernet_cut := cut?_append (show (ethernetHeader ends).length = 14 from rfl)
    (ipv4HeaderWith ends identification length ipv4Sum
      ++ (udpHeaderWith ends length udpSum ++ payload))
  have ip_cut := cut?_append
    (show (ipv4HeaderWith ends identification length ipv4Sum).length = 20 from rfl)
    (udpHeaderWith ends length udpSum ++ payload)
  have udp_cut := cut?_append
    (show (udpHeaderWith ends length udpSum).length = 8 from rfl) payload
  have payload_cut : cut? (length.toNat - 8) payload = some (payload, []) := by
    have whole := cut?_append (show payload.length = payload.length from rfl) []
    rwa [List.append_nil, ← Nat.add_sub_cancel_left 8 payload.length, ← udp_length] at whole
  have version : byteAt (ipv4HeaderWith ends identification length ipv4Sum
      ++ (udpHeaderWith ends length udpSum ++ payload)) 0 = 0x45 := rfl
  have words : 4 * ((0x45 : UInt8).toNat % 16) = 20 := rfl
  rw [parse?, ethernet_cut]
  simp only [Option.bind_eq_bind, Option.bind_some, version, words, ip_cut, udp_cut, length_field,
    payload_cut, dst_mac, src_mac, ether_type, first, total, total_eq, ident, flags, hops, protocol,
    src_ip, dst_ip, src_port, dst_port]
  rw [packetOf, ← length_eq]
  rfl

end SwapCapture.Frame
