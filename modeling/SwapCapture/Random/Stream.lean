/-
The stream of random words behind a run.

A `RandomStream` is a key, the number of the next block and the words of the present block that
are still unread.  Reading takes words in order, block after block, so that a stream is a plain
sequence of 32-bit words; a 64-bit word is two of them, low half first.

* `RandomStream.ofSeed` — the stream that a 64-bit seed names;
* `RandomStream.next32`, `RandomStream.next64` — the next word;
* `Draw` — a computation that reads from a stream.
-/
import SwapCapture.Random.ChaCha

namespace SwapCapture

structure RandomStream where
  key : ChaCha.Key
  /-- The number of the block to make when `unread` has run out. -/
  nextBlock : UInt64
  /-- The words of the present block that have not been read. -/
  unread : List UInt32

abbrev Draw (α : Type) := StateM RandomStream α

namespace RandomStream

/-- The seed after `n` steps of a linear congruential generator. -/
def seedAfter : Nat → UInt64 → UInt64
  | 0, seed => seed
  | n + 1, seed => seedAfter n (seed * 6364136223846793005 + 11634580027462260723)

/-- The permuted output of `seed`: its high bits mixed, then turned right by its top five. -/
def seedWord (seed : UInt64) : UInt32 :=
  let mixed := (((seed >>> 18) ^^^ seed) >>> 27).toUInt32
  let turn := (seed >>> 59).toUInt32
  (mixed >>> turn) ||| (mixed <<< ((32 - turn) % 32))

/-- The start of the stream of `seed`: word `i` of the key is the output of `seedAfter (i + 1)
seed`. -/
def ofSeed (seed : UInt64) : RandomStream where
  key := Vector.ofFn fun i => seedWord (seedAfter (i.val + 1) seed)
  nextBlock := 0
  unread := []

def next32 : Draw UInt32 := fun s =>
  match s.unread with
  | w :: ws => (w, { s with unread := ws })
  | [] =>
    let words := ChaCha.block s.key s.nextBlock
    (words[0], { s with nextBlock := s.nextBlock + 1, unread := words.toList.tail })

/-- The next 64-bit word: two of `next32`, the low half first. -/
def next64 : Draw UInt64 := do
  let low ← next32
  let high ← next32
  pure (low.toUInt64 ||| high.toUInt64 <<< 32)

end RandomStream

end SwapCapture
