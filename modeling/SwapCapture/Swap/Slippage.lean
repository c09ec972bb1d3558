/-
The least amount out that a trader accepts, as a share of the amount in.

The share and the product are double-precision numbers, so the result may differ from the exact
share where the product is rounded.  Both are written here as integers: a share is a number of
`2 ^ 53`rds, and a product is rounded to 53 significant bits before its fraction is cut off.

* `Slippage.roundToEven` — division by a power of two, to the nearest integer, ties to even;
* `Slippage.toPrecision` — the nearest number with 53 significant bits;
* `Slippage.minAmountOut` — the product of an amount and a share, cut to an integer.
-/
namespace SwapCapture.Slippage

def precision : Nat := 53

/-- `n / 2 ^ places`, rounded to the nearest integer; a half goes to the even neighbour. -/
def roundToEven (n places : Nat) : Nat :=
  let quotient := n >>> places
  let unit := 1 <<< places
  let rest := n % unit
  if 2 * rest > unit ∨ (2 * rest = unit ∧ quotient % 2 = 1) then quotient + 1 else quotient

/-- The number nearest to `n` that has at most 53 significant bits; a half goes to the one whose
last significant bit is zero. -/
def toPrecision (n : Nat) : Nat :=
  let surplus := n.log2 + 1 - precision
  roundToEven n surplus <<< surplus

/-- A share below one, as the number of `2 ^ 53`rds nearest to it. -/
structure Share where
  parts : Nat
deriving DecidableEq, Repr

/-- The double nearest to `0.90`. -/
def Share.nineTenths : Share := ⟨8106479329266893⟩

/-- The double nearest to `0.999`. -/
def Share.allButAThousandth : Share := ⟨8998192055486251⟩

/-- The product of `amount` and `share` in double precision, with its fraction cut off. -/
def minAmountOut (amount : UInt64) (share : Share) : UInt64 :=
  .ofNat (toPrecision (toPrecision amount.toNat * share.parts) >>> precision)

end SwapCapture.Slippage
