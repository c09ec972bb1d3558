/-
Hardware and IPv4 addresses, their text, and the endpoints of a conversation.

* `MacAddress.text`, `MacAddress.ofText` — six octets in base sixteen, divided by colons;
* `Ipv4Address.text`, `Ipv4Address.ofText?` — four octets in base ten, divided by points;
* `Endpoints` — the addresses and ports on both sides.

The octet of a hardware address takes two characters: two digits, or a plus sign and one digit.
The octet of an IPv4 address has no sign and no zero in front.
-/
import SwapCapture.Bytes.Words
import SwapCapture.Text.Digits
import SwapCapture.Text.Fields

namespace SwapCapture

/-- A 48-bit hardware address: six octets in the order in which they are sent. -/
structure MacAddress where
  a : UInt8
  b : UInt8
  c : UInt8
  d : UInt8
  e : UInt8
  f : UInt8
deriving DecidableEq, Repr

structure InvalidMacAddress where
  text : String
deriving DecidableEq, Repr

def InvalidMacAddress.message (e : InvalidMacAddress) : String :=
  s!"invalid MAC address '{e.text}' (expected six hex octets separated by ':')"

namespace MacAddress

def octets (m : MacAddress) : Bytes := [m.a, m.b, m.c, m.d, m.e, m.f]

@[simp] theorem length_octets (m : MacAddress) : m.octets.length = 6 := rfl

/-- Six octets in small letters, divided by `:`. -/
def text (m : MacAddress) : String :=
  String.intercalate ":" (m.octets.map fun octet => Text.hex 2 octet.toNat)

/-- The octet that two characters stand for. -/
def octet? : List Char → Option UInt8
  | [x, y] =>
    match Text.digit? 16 y with
    | none => none
    | some low =>
      if x = '+' then some (.ofNat low)
      else (Text.digit? 16 x).map fun high => .ofNat (16 * high + low)
  | _ => none

/-- The address whose octets the `fields` of a text stand for. -/
def ofFields? : List (List Char) → Option MacAddress
  | [a, b, c, d, e, f] => do
    pure ⟨← octet? a, ← octet? b, ← octet? c, ← octet? d, ← octet? e, ← octet? f⟩
  | _ => none

def ofText (text : String) : Except InvalidMacAddress MacAddress :=
  match ofFields? (Text.fields ':' text.toList) with
  | some m => .ok m
  | none => .error ⟨text⟩

end MacAddress

structure Ipv4Address where
  a : UInt8
  b : UInt8
  c : UInt8
  d : UInt8
deriving DecidableEq, Repr

namespace Ipv4Address

def octets (ip : Ipv4Address) : Bytes := [ip.a, ip.b, ip.c, ip.d]

@[simp] theorem length_octets (ip : Ipv4Address) : ip.octets.length = 4 := rfl

/-- Four octets in base ten, divided by points. -/
def text (ip : Ipv4Address) : String :=
  String.intercalate "." (ip.octets.map fun octet => Text.decimal 1 octet.toNat)

/-- The octet that one to three `digits` stand for.  A zero stands only alone. -/
def octet? (digits : List Char) : Option UInt8 :=
  match digits with
  | [] => none
  | '0' :: _ :: _ => none
  | _ =>
    match Text.decimalValue? digits with
    | some n => if n < 256 then some (.ofNat n) else none
    | none => none

def ofText? (text : String) : Option Ipv4Address :=
  match Text.fields '.' text.toList with
  | [a, b, c, d] => do pure ⟨← octet? a, ← octet? b, ← octet? c, ← octet? d⟩
  | _ => none

end Ipv4Address

structure Endpoints where
  sourceMac : MacAddress
  destinationMac : MacAddress
  sourceIp : Ipv4Address
  destinationIp : Ipv4Address
  sourcePort : UInt16
  destinationPort : UInt16
deriving DecidableEq, Repr

def Endpoints.default : Endpoints where
  sourceMac := ⟨0x00, 0x11, 0x22, 0x33, 0x44, 0x55⟩
  destinationMac := ⟨0x02, 0x00, 0x00, 0x00, 0x00, 0x01⟩
  sourceIp := ⟨192, 168, 69, 1⟩
  destinationIp := ⟨192, 168, 69, 2⟩
  sourcePort := 54321
  destinationPort := 8080

end SwapCapture
