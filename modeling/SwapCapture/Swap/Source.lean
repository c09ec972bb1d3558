/-
The source of the swap intents of a run.

An `IntentSource` owns the only random stream of a run.  Each intent reads from it in an order
that its class fixes, so a profile and a seed determine every intent:

* `IntentSource.small` — the amount, then the direction;
* `IntentSource.tight` — the amount alone;
* `IntentSource.large` — the amount, then the pool, then the direction.
-/
import SwapCapture.Random.Uniform
import SwapCapture.Swap.Intent
import SwapCapture.Swap.Profile
import SwapCapture.Swap.Slippage

namespace SwapCapture

namespace PoolAddress

def ethUsdc : PoolAddress :=
  #v[0xA0, 0xB8, 0x69, 0x91, 0xC6, 0x21, 0x8B, 0x36, 0xC1, 0xD1,
    0x9D, 0x4A, 0x2E, 0x9E, 0xB0, 0xCE, 0x36, 0x06, 0xEB, 0x48]

def wbtcEth : PoolAddress :=
  #v[0xCB, 0xCD, 0xF9, 0x62, 0x6B, 0xC0, 0x3E, 0x24, 0xF7, 0x79,
    0x43, 0x41, 0x78, 0xA7, 0x3A, 0x0B, 0x4B, 0xAD, 0x62, 0xED]

end PoolAddress

/-- A profile and the random stream that its intents are drawn from. -/
structure IntentSource where
  profile : Profile
  stream : RandomStream

namespace IntentSource

def ofSeed (profile : Profile) (seed : UInt64) : IntentSource := ⟨profile, .ofSeed seed⟩

/-- Either direction, equally often. -/
def direction : Draw Direction := do
  let side ← Uniform.narrow 0 1
  pure (if side = 0 then .zeroForOne else .oneForZero)

/-- Either of `ethUsdc` and `wbtcEth`, equally often. -/
def largePool : Draw PoolAddress := do
  let choice ← Uniform.wide 0 1
  pure (if choice = 0 then .ethUsdc else .wbtcEth)

/-- A swap below the least amount that readers accept, which is `1000000`. -/
def small (nonce : UInt64) : Draw Intent := do
  let amount ← Uniform.wide 1 999999
  let direction ← direction
  pure ⟨nonce, .ethUsdc, .ofNat amount, 1, direction⟩

/-- A swap with `minAmountOut` at most a thousandth below `amountIn`. -/
def tight (nonce : UInt64) : Draw Intent := do
  let amount := UInt64.ofNat (← Uniform.wide 5000000 50000000)
  pure ⟨nonce, .ethUsdc, amount, Slippage.minAmountOut amount .allButAThousandth, .zeroForOne⟩

/-- A swap of a large amount, with `minAmountOut` a tenth below `amountIn`. -/
def large (nonce : UInt64) : Draw Intent := do
  let amount := UInt64.ofNat (← Uniform.wide 10000000 200000000)
  let pool ← largePool
  let direction ← direction
  pure ⟨nonce, pool, amount, Slippage.minAmountOut amount .nineTenths, direction⟩

def swapOf (kind : SwapClass) (nonce : UInt64) : Draw Intent :=
  match kind with
  | .small => small nonce
  | .tight => tight nonce
  | .large => large nonce

/-- Draws `value` from the stream of `source`, which goes on behind it. -/
def draw {α : Type} (source : IntentSource) (value : Draw α) : α × IntentSource :=
  let (a, stream) := value.run source.stream
  (a, { source with stream })

/-- The intent at `index`, which is its nonce too, and its class. -/
def intent (source : IntentSource) (index : UInt64) : (SwapClass × Intent) × IntentSource :=
  let kind := source.profile.classAt index
  let (intent, source) := source.draw (swapOf kind index)
  ((kind, intent), source)

end IntentSource

end SwapCapture
