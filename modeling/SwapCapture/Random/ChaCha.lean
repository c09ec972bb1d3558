/-
The ChaCha block function with twelve rounds.

A block is a permutation of sixteen words, followed by the addition of the words it started
from.  Here the block number takes two words and the two words behind it are zero, so a key
alone names a stream of blocks.

* `ChaCha.quarterRound` — the mixing step on four of the sixteen words;
* `ChaCha.doubleRound` — the four columns, then the four diagonals;
* `ChaCha.block` — the sixteen output words of one block.
-/
namespace SwapCapture.ChaCha

abbrev State := Vector UInt32 16

abbrev Key := Vector UInt32 8

/-- `x` with its bits turned left by `n` places, `0 < n < 32`. -/
def rotateLeft (x n : UInt32) : UInt32 := (x <<< n) ||| (x >>> (32 - n))

/-- Adds, exclusive-ors and turns the words at `a`, `b`, `c` and `d` through each other. -/
def quarterRound (s : State) (a b c d : Fin 16) : State :=
  let s := s.set a (s[a] + s[b])
  let s := s.set d (rotateLeft (s[d] ^^^ s[a]) 16)
  let s := s.set c (s[c] + s[d])
  let s := s.set b (rotateLeft (s[b] ^^^ s[c]) 12)
  let s := s.set a (s[a] + s[b])
  let s := s.set d (rotateLeft (s[d] ^^^ s[a]) 8)
  let s := s.set c (s[c] + s[d])
  s.set b (rotateLeft (s[b] ^^^ s[c]) 7)

def doubleRound (s : State) : State :=
  -- columns
  let s := quarterRound s 0 4 8 12
  let s := quarterRound s 1 5 9 13
  let s := quarterRound s 2 6 10 14
  let s := quarterRound s 3 7 11 15
  -- diagonals
  let s := quarterRound s 0 5 10 15
  let s := quarterRound s 1 6 11 12
  let s := quarterRound s 2 7 8 13
  quarterRound s 3 4 9 14

def doubleRounds : Nat → State → State
  | 0, s => s
  | n + 1, s => doubleRounds n (doubleRound s)

/-- The words before the first round: the four constants, `key`, `number` with its low half first,
and two zeros. -/
def initial (key : Key) (number : UInt64) : State :=
  #v[0x61707865, 0x3320646E, 0x79622D32, 0x6B206574,
    key[0], key[1], key[2], key[3], key[4], key[5], key[6], key[7],
    number.toUInt32, (number >>> 32).toUInt32, 0, 0]

/-- The words of block `number`: twelve rounds, then the first words added back. -/
def block (key : Key) (number : UInt64) : State :=
  let start := initial key number
  (doubleRounds 6 start).zipWith (· + ·) start

end SwapCapture.ChaCha
