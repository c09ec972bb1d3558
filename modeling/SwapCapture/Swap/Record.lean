/-
The wire record of a swap intent: 48 bytes, every number with its low byte first.

    bytes  0..8    nonce
    bytes  8..28   pool
    bytes 28..36   amount in
    bytes 36..44   least amount out
    byte  44       direction, 0 or 1
    bytes 45..48   reserved, zero

`Record.encode` writes a record and `Record.size` is its length (`Record.length_encode`).
`Record.encodeRaw` checks raw inputs on the way.
-/
import SwapCapture.Swap.Intent

namespace SwapCapture.Record

open Bytes

def size : Nat := 48

def poolSize : Nat := 20

def nonceOffset : Nat := 0

def poolOffset : Nat := 8

def amountInOffset : Nat := 28

def minAmountOutOffset : Nat := 36

def directionOffset : Nat := 44

def reservedOffset : Nat := 45

/-- The record of `intent`: its fields in the order of their offsets. -/
def encode (intent : Intent) : Bytes :=
  le64 intent.nonce ++ intent.pool.toList ++ le64 intent.amountIn ++ le64 intent.minAmountOut
    ++ [intent.direction.toByte] ++ [0, 0, 0]

@[simp] theorem length_encode (intent : Intent) : (encode intent).length = size := by
  simp [encode, size]

/-- The record of raw inputs, if `Intent.ofRaw` makes an intent of them. -/
def encodeRaw (nonce : Nat) (pool : Bytes) (amountIn minAmountOut : Nat) (direction : UInt8) :
    Except IntentFault Bytes :=
  encode <$> Intent.ofRaw nonce pool amountIn minAmountOut direction

end SwapCapture.Record
