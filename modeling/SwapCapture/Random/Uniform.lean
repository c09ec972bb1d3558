/-
Uniform draws from an interval.

A word `v` of `w` bits is scaled to `v * range`: the high `w` bits of the product are the result,
and the low `w` bits tell whether `v` lies in the part of the words that covers every result
equally often.  A word outside this part is passed over and the next one is tried.

* `Uniform.scaled` — the loop over words, for any width and any zone of accepted products;
* `Uniform.wide` — a number of at most 64 bits from 64-bit words;
* `Uniform.narrow` — a number of at most 16 bits from 32-bit words.

The two differ in their zones: the wide one keeps the largest multiple of the range by a power
of two, the narrow one the largest multiple of all.
-/
import SwapCapture.Random.Stream

namespace SwapCapture.Uniform

/-- The stream repeats after this many words, since the number of a block has 64 bits. -/
def period : Nat := 16 * UInt64.size

/-- The first word whose product with `range` has its low part at most `zone`, scaled to a number
below `range`.  A loop that has tried a whole period would never end; it gives zero. -/
def scaled (next : Draw Nat) (size range zone : Nat) : Nat → Draw Nat
  | 0 => pure 0
  | tries + 1 => do
    let v ← next
    let product := v * range
    if product % size ≤ zone then pure (product / size)
    else scaled next size range zone tries

/-- The products kept for 64-bit words: `range`, moved up until its top bit is set. -/
def wideZone (range : Nat) : Nat := range <<< (63 - range.log2) - 1

/-- The products kept for 32-bit words: the largest multiple of the range below `2 ^ 32`. -/
def narrowZone (range : Nat) : Nat := UInt32.size - 1 - (UInt32.size - range) % range

/-- A number from `low` to `high`, both included, of at most 64 bits. -/
def wide (low high : Nat) : Draw Nat := do
  let range := high - low + 1
  let offset ←
    scaled (UInt64.toNat <$> RandomStream.next64) UInt64.size range (wideZone range) period
  pure (low + offset)

/-- A number from `low` to `high`, both included, of at most 16 bits. -/
def narrow (low high : Nat) : Draw Nat := do
  let range := high - low + 1
  let offset ←
    scaled (UInt32.toNat <$> RandomStream.next32) UInt32.size range (narrowZone range) period
  pure (low + offset)

end SwapCapture.Uniform
