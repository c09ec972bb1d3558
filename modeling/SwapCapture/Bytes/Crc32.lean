/-
The CRC-32 of IEEE 802.3, byte by byte.

The register starts with all ones, takes each byte at its low end and is complemented at the
end.  Because a checksum is a left fold over the bytes, a stream may be summed in pieces:

* `Crc32.update_append` — two pieces one after the other are their concatenation;
* `Crc32.of` — the checksum of a whole string.
-/
import SwapCapture.Bytes.Words

namespace SwapCapture

/-- A running checksum: the `register` before the final complement. -/
structure Crc32 where
  register : UInt32
deriving DecidableEq, Repr

namespace Crc32

def start : Crc32 := ⟨0xFFFFFFFF⟩

/-- One bit leaves the register; a one takes the reflected polynomial `0xEDB88320` with it. -/
def shift (r : UInt32) : UInt32 :=
  if r &&& 1 = 1 then (r >>> 1) ^^^ 0xEDB88320 else r >>> 1

/-- One byte enters the register and its eight bits are shifted out, each by `shift`. -/
def step (r : UInt32) (b : UInt8) : UInt32 :=
  shift (shift (shift (shift (shift (shift (shift (shift (r ^^^ b.toUInt32))))))))

def update (c : Crc32) (bytes : Bytes) : Crc32 := ⟨bytes.foldl step c.register⟩

def value (c : Crc32) : UInt32 := ~~~c.register

def of (bytes : Bytes) : UInt32 := (start.update bytes).value

/-- The check value of `of`, which is that of the digits from one to nine. -/
example : of [0x31, 0x32, 0x33, 0x34, 0x35, 0x36, 0x37, 0x38, 0x39] = 0xCBF43926 := by cbv

@[simp] theorem update_nil (c : Crc32) : c.update [] = c := rfl

theorem update_append (c : Crc32) (xs ys : Bytes) :
    c.update (xs ++ ys) = (c.update xs).update ys := by
  simp [update, List.foldl_append]

end Crc32

end SwapCapture
