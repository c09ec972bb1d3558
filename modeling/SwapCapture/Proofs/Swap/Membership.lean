/-
What a source gives for a swap of each class.

The amounts of a class lie in an interval of their own, and the least amount out, the pool and
sometimes the direction follow from the class.  None of this depends on the stream: whatever words
were read before, and whoever read them, the next swap is one of its class.  So it holds along every
sequence of calls on one source, which may also ask for identifications or read the stream itself:

* `Intent.InClass` — an intent that a swap of a class may announce;
* `IntentSource.swapOf_always` — every swap that is drawn for a class is one of them;
* `IntentSource.answer`, `IntentSource.answers` — one call on a source, and a sequence of calls;
* `IntentSource.answer_fits` — what one call may give, and that the profile stays;
* `IntentSource.answers_fit_of_seed` — what any sequence of calls may give.
-/
import Mathlib.Data.List.Forall2
import SwapCapture.Proofs.Random.Bounds
import SwapCapture.Swap.Source

namespace SwapCapture

/-- The pools of large swaps, by the number that is drawn for them. -/
def PoolAddress.ofLargeSwaps : List PoolAddress := [ethUsdc, wbtcEth]

/-- What a swap of a class may announce. -/
def Intent.InClass (intent : Intent) : SwapClass → Prop
  | .small =>
    1 ≤ intent.amountIn.toNat ∧ intent.amountIn.toNat ≤ 999999 ∧
      intent.minAmountOut = 1 ∧ intent.pool = PoolAddress.ethUsdc
  | .tight =>
    5000000 ≤ intent.amountIn.toNat ∧ intent.amountIn.toNat ≤ 50000000 ∧
      intent.minAmountOut = Slippage.minAmountOut intent.amountIn .allButAThousandth ∧
      intent.pool = PoolAddress.ethUsdc ∧ intent.direction = .zeroForOne
  | .large =>
    10000000 ≤ intent.amountIn.toNat ∧ intent.amountIn.toNat ≤ 200000000 ∧
      intent.minAmountOut = Slippage.minAmountOut intent.amountIn .nineTenths ∧
      intent.pool ∈ PoolAddress.ofLargeSwaps

namespace IntentSource

/-! ### One swap -/

theorem fst_draw {α : Type} (source : IntentSource) (value : Draw α) :
    (source.draw value).1 = (value.run source.stream).1 := rfl

theorem profile_draw {α : Type} (source : IntentSource) (value : Draw α) :
    (source.draw value).2.profile = source.profile := rfl

/-- The number that `largePool` draws is that of a pool. -/
theorem ofLargeSwaps_at (s : RandomStream) :
    PoolAddress.ofLargeSwaps[((Uniform.wide 0 1).run s).1]? = some (largePool.run s).1 := by
  obtain ⟨-, choice_le⟩ := Uniform.wide_mem (show 0 ≤ 1 by omega) s
  have pool_eq : (largePool.run s).1
      = if ((Uniform.wide 0 1).run s).1 = 0 then .ethUsdc else .wbtcEth := rfl
  rw [pool_eq]
  by_cases zero : ((Uniform.wide 0 1).run s).1 = 0
  · rw [if_pos zero, zero]
    rfl
  · have one : ((Uniform.wide 0 1).run s).1 = 1 := by omega
    rw [if_neg zero, one]
    rfl

theorem largePool_mem : Draw.Always largePool fun pool => pool ∈ PoolAddress.ofLargeSwaps := by
  intro s
  exact List.mem_of_getElem? (ofLargeSwaps_at s)

/-- An amount that is drawn fits in 64 bits, so what follows may use its bounds of the word that it
becomes. -/
theorem always_amount {β : Type} {low high : Nat} {Q : β → Prop} {rest : Nat → Draw β}
    (h : low ≤ high) (fits : high < UInt64.size)
    (later : ∀ amount, low ≤ (UInt64.ofNat amount).toNat → (UInt64.ofNat amount).toNat ≤ high →
      Draw.Always (rest amount) Q) :
    Draw.Always (Uniform.wide low high >>= rest) Q := by
  refine Draw.Always.bind (Uniform.wide_mem h) ?_
  intro amount ⟨low_le, le_high⟩
  have amount_eq : (UInt64.ofNat amount).toNat = amount :=
    UInt64.toNat_ofNat_of_lt' (Nat.lt_of_le_of_lt le_high fits)
  apply later amount
  · rwa [amount_eq]
  · rwa [amount_eq]

/-- A swap that is drawn for `kind` is one of the class, and has the nonce that it was given. -/
theorem swapOf_always (kind : SwapClass) (nonce : UInt64) :
    Draw.Always (swapOf kind nonce) fun intent => intent.nonce = nonce ∧ intent.InClass kind := by
  -- nothing is known of a direction that is drawn
  have any_direction : Draw.Always direction fun _ => True := fun _ => trivial
  cases kind with
  | small =>
    rw [swapOf, small]
    refine always_amount (by omega) (by decide) ?_
    intro amount low_le le_high
    refine any_direction.bind ?_
    intro direction _
    exact Draw.Always.of_pure ⟨rfl, low_le, le_high, rfl, rfl⟩
  | tight =>
    rw [swapOf, tight]
    refine always_amount (by omega) (by decide) ?_
    intro amount low_le le_high
    exact Draw.Always.of_pure ⟨rfl, low_le, le_high, rfl, rfl, rfl⟩
  | large =>
    rw [swapOf, large]
    refine always_amount (by omega) (by decide) ?_
    intro amount low_le le_high
    refine largePool_mem.bind ?_
    intro pool pool_mem
    refine any_direction.bind ?_
    intro direction _
    exact Draw.Always.of_pure ⟨rfl, low_le, le_high, rfl, pool_mem⟩

/-! ### Calls on one source -/

/-- A call on a source: for the intent at an index, for the identification at an index, or for
anything else that is done with the stream. -/
inductive Call where
  | intent (index : UInt64)
  | identification (policy : IdPolicy) (index : UInt64)
  | raw (value : Draw UInt64)

/-- What a `Call` gives. -/
inductive Answer where
  | intent (kind : SwapClass) (intent : Intent)
  | identification (value : UInt16)
  | raw (value : UInt64)

/-- One call, and the source after it. -/
def answer (source : IntentSource) : Call → Answer × IntentSource
  | .intent index =>
    let ((kind, intent), later) := source.intent index
    (.intent kind intent, later)
  | .identification policy index =>
    let (value, later) := source.draw (policy.next index)
    (.identification value, later)
  | .raw value =>
    let (word, later) := source.draw value
    (.raw word, later)

theorem answer_identification (source : IntentSource) (policy : IdPolicy) (index : UInt64) :
    (source.answer (.identification policy index)).1
      = .identification ((policy.next index).run source.stream).1 := rfl

def answers (source : IntentSource) : List Call → List Answer
  | [] => []
  | call :: calls =>
    let (first, later) := source.answer call
    first :: later.answers calls

/-- What a call on a source with the given `profile` may give. -/
inductive Fits (profile : Profile) : Call → Answer → Prop where
  | intent {index : UInt64} {intent : Intent} (nonce_eq : intent.nonce = index)
    (inClass : intent.InClass (profile.classAt index)) :
    Fits profile (.intent index) (.intent (profile.classAt index) intent)
  | random {index : UInt64} {value : UInt16} (low : 1 ≤ value.toNat) (high : value.toNat ≤ 65535) :
    Fits profile (.identification .random index) (.identification value)
  | sequential {index : UInt64} :
    Fits profile (.identification .sequential index)
      (.identification (.ofNat (index.toNat % 65535 + 1)))
  | raw {draw : Draw UInt64} {value : UInt64} : Fits profile (.raw draw) (.raw value)

/-- One call on any source.  The stream goes on, and the `profile` stays. -/
theorem answer_fits (source : IntentSource) (call : Call) :
    Fits source.profile call (source.answer call).1 ∧
      (source.answer call).2.profile = source.profile := by
  cases call with
  | intent index =>
    obtain ⟨nonce_eq, inClass⟩ :=
      swapOf_always (source.profile.classAt index) index source.stream
    exact ⟨.intent nonce_eq inClass, rfl⟩
  | identification policy index =>
    refine ⟨?_, rfl⟩
    rw [answer_identification]
    cases policy with
    | random =>
      obtain ⟨low, high⟩ := IdPolicy.next_random_mem index source.stream
      exact .random low high
    | sequential =>
      rw [IdPolicy.next_sequential]
      exact .sequential
  -- whatever else reads the stream leaves the profile alone
  | raw value => exact ⟨.raw, rfl⟩

/-- A sequence of calls on any source, by induction on `calls`: the source of the later calls has
the same `profile`. -/
theorem answers_fit (source : IntentSource) (calls : List Call) :
    List.Forall₂ (Fits source.profile) calls (source.answers calls) := by
  induction calls generalizing source with
  | nil => exact .nil
  | cons call calls ih =>
    obtain ⟨first, profile_eq⟩ := answer_fits source call
    have rest := ih (source.answer call).2
    rw [profile_eq] at rest
    exact .cons first rest

/-- **Every swap lies in its class.** Whatever `profile` and `seed`, and whatever was asked of the
source or read from its stream before, an answer `Fits` its call: for an intent it is the class of
the index, and an intent of this class with the index as its nonce.  An identification is one to
65535 if it is drawn, and counted from the index if not.  So it is on every stream, not only on
those that `ofSeed` names, and the number that is drawn for a large pool is always the number of a
pool. -/
theorem answers_fit_of_seed (profile : Profile) (calls : List Call) :
    (∀ seed, List.Forall₂ (Fits profile) calls ((ofSeed profile seed).answers calls)) ∧
      ∀ stream, List.Forall₂ (Fits profile) calls (answers ⟨profile, stream⟩ calls) ∧
        PoolAddress.ofLargeSwaps[((Uniform.wide 0 1).run stream).1]?
          = some (largePool.run stream).1 := by
  constructor
  · intro seed
    exact answers_fit (ofSeed profile seed) calls
  · intro stream
    exact ⟨answers_fit ⟨profile, stream⟩ calls, ofLargeSwaps_at stream⟩

end IntentSource

end SwapCapture
