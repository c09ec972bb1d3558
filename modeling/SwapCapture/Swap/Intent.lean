/-
Swap intents: what a trader announces before a swap is made.

An intent names a pool, the side that is sold, the amount that goes in and the least amount that
may come out.  Raw inputs are checked by `Intent.ofRaw`: the pool first, then the direction;
numbers are never refused but taken modulo `2 ^ 64`.
-/
import SwapCapture.Bytes.Words

namespace SwapCapture

abbrev PoolAddress := Vector UInt8 20

inductive Direction where
  | zeroForOne
  | oneForZero
deriving DecidableEq, Repr

/-- What is wrong with the inputs of `Intent.ofRaw`. -/
inductive IntentFault where
  | poolAddressLength (length : Nat)
  | direction (value : UInt8)
deriving DecidableEq, Repr

def IntentFault.message : IntentFault → String
  | .poolAddressLength length => s!"pool address must be 20 bytes, got {length}"
  | .direction value => s!"token direction must be 0 or 1, got {value.toNat}"

namespace Direction

def toByte : Direction → UInt8
  | .zeroForOne => 0
  | .oneForZero => 1

def ofByte (value : UInt8) : Except IntentFault Direction :=
  if value = 0 then .ok .zeroForOne
  else if value = 1 then .ok .oneForZero
  else .error (.direction value)

@[simp] theorem ofByte_toByte (d : Direction) : ofByte d.toByte = .ok d := by
  cases d <;> rfl

end Direction

namespace PoolAddress

def ofBytes (bytes : Bytes) : Except IntentFault PoolAddress :=
  if h : bytes.length = 20 then .ok ⟨bytes.toArray, by simpa using h⟩
  else .error (.poolAddressLength bytes.length)

end PoolAddress

/-- A single swap intent.  `minAmountOut` may well be above `amountIn`; whoever reads the intent
judges that. -/
structure Intent where
  nonce : UInt64
  pool : PoolAddress
  amountIn : UInt64
  minAmountOut : UInt64
  direction : Direction
deriving DecidableEq, Repr

/-- An intent from raw inputs.  A number counts modulo `2 ^ 64`. -/
def Intent.ofRaw (nonce : Nat) (pool : Bytes) (amountIn minAmountOut : Nat) (direction : UInt8) :
    Except IntentFault Intent := do
  let pool ← PoolAddress.ofBytes pool
  let direction ← Direction.ofByte direction
  pure ⟨.ofNat nonce, pool, .ofNat amountIn, .ofNat minAmountOut, direction⟩

end SwapCapture
