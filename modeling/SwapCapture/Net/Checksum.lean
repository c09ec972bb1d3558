/-
The one's-complement checksums of the Internet protocols.

The sum runs over the 16-bit words of the data in network order; a last odd byte counts as the
high byte of a word.  It is kept in 32 bits, its carries are folded back into the low half at the
end, and the result is complemented.  Additions are checked: a sum that does not fit in 32 bits
stops the program, and its result is `none`.

* `Checksum.add?` — a checked addition;
* `Checksum.sumWords?` — the sum before the carries are folded;
* `Checksum.foldCarries?` — the carries folded, and the complement;
* `Checksum.internet?` — the checksum of a header;
* `Checksum.udp?` — the checksum of a UDP segment and its pseudo-header, where zero is sent as
  all ones because a zero field means that there is no checksum;
* `Checksum.isSome_internet?`, `Checksum.isSome_udp?` — nothing stops on data that is short enough.
-/
import SwapCapture.Net.Address

namespace SwapCapture

/-- How the two checksum fields of a frame are filled. -/
inductive ChecksumPolicy where
  /-- Both fields are zero, to be ignored or filled in by whoever sends the frames. -/
  | zero
  /-- Both fields hold what `internet?` and `udp?` give. -/
  | compute
deriving DecidableEq, Repr

namespace ChecksumPolicy

/-- A text that names no policy; the ASCII letters of `key` are small. -/
structure Unknown where
  key : String
deriving DecidableEq, Repr

def Unknown.message (e : Unknown) : String :=
  s!"unknown checksum mode '{e.key}' (expected zero or compute)"

/-- The policy that `text` names, with ASCII letters in either case. -/
def ofName (text : String) : Except Unknown ChecksumPolicy :=
  let key := text.toLower
  if key = "zero" then .ok .zero
  else if key = "compute" then .ok .compute
  else .error ⟨key⟩

end ChecksumPolicy

namespace Checksum

open Bytes

def udpProtocol : UInt8 := 17

/-- `a + b`, or `none` where that is too large for 32 bits. -/
def add? (a b : UInt32) : Option UInt32 :=
  if a.toNat + b.toNat < UInt32.size then some (a + b) else none

/-- `acc` and the 16-bit words of the data, added one by one. -/
def sumWords? (acc : UInt32) : Bytes → Option UInt32
  | high :: low :: rest =>
    match add? acc (high.toUInt32 <<< 8 ||| low.toUInt32) with
    | none => none
    | some sum => sumWords? sum rest
  | [high] => add? acc (high.toUInt32 <<< 8)
  | [] => some acc

/-- The high half of `acc`, added to its low half. -/
def pass? (acc : UInt32) : Option UInt32 := add? (acc % 65536) (acc / 65536)

theorem toNat_of_add? {a b sum : UInt32} (h : add? a b = some sum) :
    sum.toNat = a.toNat + b.toNat := by
  rw [add?] at h
  split at h
  · next fits =>
    cases h
    rw [UInt32.toNat_add, Nat.mod_eq_of_lt fits]
  · cases h

theorem toNat_of_pass? {acc next : UInt32} (h : pass? acc = some next) :
    next.toNat = acc.toNat % 65536 + acc.toNat / 65536 := by
  rw [toNat_of_add? h, UInt32.toNat_mod, UInt32.toNat_div]
  rfl

/-- The carries of `acc` folded back until it fits in 16 bits, then complemented. -/
def foldCarries? (acc : UInt32) : Option UInt16 :=
  if acc > 0xFFFF then
    match _ : pass? acc with
    | none => none
    | some next => foldCarries? next
  else some (~~~acc.toUInt16)
termination_by acc.toNat
decreasing_by
  next large folded =>
  have large : 65535 < acc.toNat := UInt32.lt_iff_toNat_lt.mp large
  rw [toNat_of_pass? folded]
  omega

def internet? (data : Bytes) : Option UInt16 := do foldCarries? (← sumWords? 0 data)

/-- The fields of the IPv4 header that a UDP checksum covers as well: the addresses, `udpProtocol`
and the length of the segment in 16 bits. -/
def pseudoHeader (source destination : Ipv4Address) (length : Nat) : Bytes :=
  source.octets ++ destination.octets ++ [0, udpProtocol] ++ be16 (.ofNat length)

/-- The checksum of a UDP segment whose own checksum field is zero.  The sum of `pseudoHeader` goes
on over `segment`, and a result of zero is sent as `0xFFFF`. -/
def udp? (source destination : Ipv4Address) (segment : Bytes) : Option UInt16 := do
  let pseudo ← sumWords? 0 (pseudoHeader source destination segment.length)
  let folded ← foldCarries? (← sumWords? pseudo segment)
  -- a zero in the field would say that there is no checksum
  pure (if folded = 0 then 0xFFFF else folded)

/-! ### Data that is short enough -/

theorem add?_of_lt {a b : UInt32} (fits : a.toNat + b.toNat < UInt32.size) :
    add? a b = some (a + b) :=
  if_pos fits

/-- A word is its `high` byte times 256 and its `low` byte. -/
theorem toNat_word (high low : UInt8) :
    (high.toUInt32 <<< 8 ||| low.toUInt32).toNat = 256 * high.toNat + low.toNat := by
  have high_lt : high.toNat < 2 ^ 8 := high.toNat_lt
  have low_lt : low.toNat < 2 ^ 8 := low.toNat_lt
  rw [UInt32.toNat_or, UInt32.toNat_shiftLeft]
  simp only [UInt8.toNat_toUInt32, UInt32.reduceToNat, Nat.reduceMod]
  -- the low byte fills just the bits that the shift has cleared
  rw [Nat.mod_eq_of_lt (by rw [Nat.shiftLeft_eq]; omega),
    ← Nat.shiftLeft_add_eq_or_of_lt low_lt, Nat.shiftLeft_eq]
  omega

theorem toNat_lastWord (high : UInt8) : (high.toUInt32 <<< 8).toNat = 256 * high.toNat := by
  have word := toNat_word high 0
  rwa [show (0 : UInt8).toUInt32 = 0 from rfl, UInt32.or_zero] at word

/-- A sum grows by less than `65536` with each word, and an odd byte counts as one. -/
theorem exists_sumWords?_le {acc : UInt32} {data : Bytes}
    (fits : acc.toNat + 65535 * ((data.length + 1) / 2) < UInt32.size) :
    ∃ sum, sumWords? acc data = some sum ∧
      sum.toNat ≤ acc.toNat + 65535 * ((data.length + 1) / 2) := by
  simp only [UInt32.size] at fits
  -- the bound for the whole is the bound for the rest, moved by the word added in front
  fun_induction sumWords? acc data with
  | case1 acc high low rest failed =>
    have := high.toNat_lt
    have := low.toNat_lt
    rw [List.length_cons, List.length_cons] at fits
    rw [add?_of_lt] at failed
    · cases failed
    · rw [toNat_word]
      simp only [UInt32.size]
      omega
  | case2 acc high low rest sum added ih =>
    have sum_eq := toNat_of_add? added
    have := high.toNat_lt
    have := low.toNat_lt
    rw [toNat_word] at sum_eq
    rw [List.length_cons, List.length_cons] at fits ⊢
    obtain ⟨last, last_eq, last_le⟩ := ih (by omega)
    exact ⟨last, last_eq, by omega⟩
  -- the odd byte counts as a word, for which half of the length is rounded up
  | case3 acc high =>
    have := high.toNat_lt
    rw [List.length_singleton] at fits ⊢
    have sum_lt : acc.toNat + (high.toUInt32 <<< 8).toNat < UInt32.size := by
      rw [toNat_lastWord]
      simp only [UInt32.size]
      omega
    refine ⟨_, add?_of_lt sum_lt, ?_⟩
    rw [UInt32.toNat_add, Nat.mod_eq_of_lt sum_lt, toNat_lastWord]
    omega
  | case4 acc => exact ⟨acc, rfl, Nat.le_add_right _ _⟩

/-- Two halves of a word of 32 bits always have a sum, so `pass?` never stops. -/
theorem exists_pass? (acc : UInt32) : ∃ next, pass? acc = some next := by
  have acc_lt := acc.toNat_lt_size
  refine ⟨_, add?_of_lt ?_⟩
  rw [UInt32.toNat_mod, UInt32.toNat_div]
  simp only [UInt32.reduceToNat, UInt32.size] at *
  omega

theorem isSome_foldCarries? (acc : UInt32) : (foldCarries? acc).isSome := by
  fun_induction foldCarries? acc with
  | case1 acc large stopped =>
    obtain ⟨next, passed⟩ := exists_pass? acc
    rw [passed] at stopped
    cases stopped
  | case2 acc large next passed ih => exact ih
  | case3 acc small => rfl

theorem isSome_internet? {data : Bytes} (short : data.length ≤ 131074) :
    (internet? data).isSome := by
  have fits : (0 : UInt32).toNat + 65535 * ((data.length + 1) / 2) < UInt32.size := by
    simp only [UInt32.toNat_zero, UInt32.size]
    omega
  obtain ⟨sum, summed, -⟩ := exists_sumWords?_le fits
  rw [internet?, summed]
  exact isSome_foldCarries? sum

@[simp] theorem length_pseudoHeader (source destination : Ipv4Address) (length : Nat) :
    (pseudoHeader source destination length).length = 12 := rfl

theorem isSome_udp? (source destination : Ipv4Address) {segment : Bytes}
    (short : segment.length ≤ 65535) : (udp? source destination segment).isSome := by
  have front_fits : (0 : UInt32).toNat
      + 65535 * (((pseudoHeader source destination segment.length).length + 1) / 2)
        < UInt32.size := by
    rw [length_pseudoHeader]
    decide
  obtain ⟨front, front_eq, front_le⟩ := exists_sumWords?_le front_fits
  rw [length_pseudoHeader, UInt32.toNat_zero] at front_le
  -- six words of the pseudo-header leave room for all those of a segment
  have fits : front.toNat + 65535 * ((segment.length + 1) / 2) < UInt32.size := by
    simp only [UInt32.size]
    omega
  obtain ⟨sum, sum_eq, -⟩ := exists_sumWords?_le fits
  obtain ⟨folded, folded_eq⟩ := Option.isSome_iff_exists.mp (isSome_foldCarries? sum)
  rw [udp?, front_eq, Option.bind_eq_bind, Option.bind_some, sum_eq, Option.bind_eq_bind,
    Option.bind_some, folded_eq]
  rfl

end Checksum

end SwapCapture
