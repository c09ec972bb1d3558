/-
Products in double precision against exact shares.

A number is rounded to a multiple of its unit, which is one in the last of 53 significant bits, and
by half a unit at most.  So rounding never steps over a multiple of the unit that is less than half
a unit away, and a product that lies a little below a whole number is either far enough from it or
rounded up to it.  The doubles nearest to 0.9 and 0.999 are so near to these that for amounts of up
to forty bits the product, cut to an integer, is the exact share:

* `unit` — the last place of a number with 53 significant bits;
* `toPrecision_near`, `le_toPrecision` — how far rounding goes, and what it does not step over;
* `toNat_minAmountOut` — a product near enough to an exact share is cut to it;
* `toNat_nineTenths`, `toNat_allButAThousandth` — the two shares that swaps use.
-/
import Mathlib.Algebra.Ring.Nat
import Mathlib.Algebra.Order.Ring.Nat
import SwapCapture.Swap.Slippage

namespace SwapCapture.Slippage

/-! ### Rounding to 53 significant bits -/

/-- What one in the last significant bit of `n` is worth. -/
def unit (n : Nat) : Nat := 2 ^ (n.log2 + 1 - precision)

theorem roundToEven_near (n places : Nat) :
    2 * n ≤ 2 * (roundToEven n places * 2 ^ places) + 2 ^ places ∧
      2 * (roundToEven n places * 2 ^ places) ≤ 2 * n + 2 ^ places := by
  have division := Nat.div_add_mod n (2 ^ places)
  have rest_lt := Nat.mod_lt n (Nat.two_pow_pos places)
  rw [Nat.mul_comm] at division
  rw [roundToEven, Nat.shiftRight_eq_div_pow, Nat.one_shiftLeft]
  split
  · rw [Nat.add_one_mul (n / 2 ^ places)]
    omega
  · omega

theorem toPrecision_eq (n : Nat) :
    toPrecision n = unit n * roundToEven n (n.log2 + 1 - precision) := by
  rw [toPrecision, Nat.shiftLeft_eq, unit, Nat.mul_comm]

/-- `toPrecision` moves a number by half of its `unit` at most. -/
theorem toPrecision_near (n : Nat) :
    2 * n ≤ 2 * toPrecision n + unit n ∧ 2 * toPrecision n ≤ 2 * n + unit n := by
  rw [toPrecision_eq, Nat.mul_comm (unit n)]
  exact roundToEven_near n _

/-- Rounding does not step down over a multiple of the `unit` that is less than half a unit above.
-/
theorem le_toPrecision {n m : Nat} (dvd : unit n ∣ m) (near : 2 * m < 2 * n + unit n) :
    m ≤ toPrecision n := by
  obtain ⟨k, rfl⟩ := dvd
  obtain ⟨low, -⟩ := toPrecision_near n
  rw [toPrecision_eq] at low ⊢
  by_contra above
  -- the next multiple of the unit would be a whole unit away
  have next : unit n * (roundToEven n (n.log2 + 1 - precision) + 1) ≤ unit n * k :=
    Nat.mul_le_mul_left _ (Nat.lt_of_mul_lt_mul_left (Nat.not_le.mp above))
  rw [Nat.mul_add_one] at next
  omega

theorem lt_unit_mul (n : Nat) : n < unit n * 2 ^ 53 := by
  have lt : n < 2 ^ (n.log2 + 1) := Nat.lt_log2_self
  rw [unit, precision, ← Nat.pow_add]
  exact Nat.lt_of_lt_of_le lt (Nat.pow_le_pow_right (by omega) (by omega))

theorem unit_mul_le {n : Nat} (large : 2 ^ 52 ≤ n) : unit n * 2 ^ 52 ≤ n := by
  have nonzero : n ≠ 0 := by omega
  have log_ge : 52 ≤ n.log2 := (Nat.le_log2 nonzero).mpr large
  have places : n.log2 + 1 - precision + 52 = n.log2 := by
    rw [precision]
    omega
  rw [unit, ← Nat.pow_add, places]
  exact Nat.log2_self_le nonzero

theorem unit_of_lt {n : Nat} (small : n < 2 ^ 53) : unit n = 1 := by
  have log_lt : n.log2 < 53 := by
    by_cases zero : n = 0
    · rw [zero, Nat.log2_zero]
      omega
    · exact (Nat.log2_lt zero).mpr small
  rw [unit, precision, show n.log2 + 1 - 53 = 0 by omega, Nat.pow_zero]

/-- A number of 53 bits is not rounded. -/
theorem toPrecision_of_lt {n : Nat} (small : n < 2 ^ 53) : toPrecision n = n := by
  obtain ⟨low, high⟩ := toPrecision_near n
  rw [unit_of_lt small] at low high
  omega

/-- A small unit divides every whole number of `2 ^ 53`rds. -/
theorem unit_dvd {n : Nat} (small : unit n < 2 ^ 53) (q : Nat) : unit n ∣ q * 2 ^ 53 := by
  have places_lt : n.log2 + 1 - precision < 53 := (Nat.pow_lt_pow_iff_right (by omega)).mp small
  exact Nat.dvd_mul_left_of_dvd (Nat.pow_dvd_pow 2 (Nat.le_of_lt places_lt)) q

/-! ### Products with shares -/

section Product

variable {amount : UInt64} {share : Share} {q : Nat}

/-- The `unit` of a product with a share is about the amount: more than half of it, and less than
twice as much. -/
theorem unit_product {a parts : Nat} (pos : 0 < a) (normal : 2 ^ 52 ≤ parts)
    (below_one : parts < 2 ^ 53) : a < 2 * unit (a * parts) ∧ unit (a * parts) < 2 * a := by
  have product_ge : a * 2 ^ 52 ≤ a * parts := Nat.mul_le_mul_left a normal
  have product_lt : a * parts < a * 2 ^ 53 := Nat.mul_lt_mul_of_pos_left below_one pos
  have above := lt_unit_mul (a * parts)
  have below := unit_mul_le (show 2 ^ 52 ≤ a * parts by omega)
  omega

/-- A product is cut to `q` if it is at most a quarter of the amount below `q` and at least the
amount below `q + 1`, all counted in `2 ^ 53`rds: rounding moves it by less than the amount, and
does not step down over `q`. -/
theorem toNat_minAmountOut (amount_le : amount.toNat ≤ 2 ^ 40) (normal : 2 ^ 52 ≤ share.parts)
    (below_one : share.parts < 2 ^ 53)
    (low : 4 * (q * 2 ^ 53) ≤ 4 * (amount.toNat * share.parts) + amount.toNat)
    (high : amount.toNat * share.parts + amount.toNat ≤ (q + 1) * 2 ^ 53) :
    (minAmountOut amount share).toNat = q := by
  have product_le : amount.toNat * share.parts ≤ amount.toNat * 2 ^ 53 :=
    Nat.mul_le_mul_left _ (Nat.le_of_lt below_one)
  -- rounding neither steps down over `q` nor up to `q + 1`
  have within : q * 2 ^ 53 ≤ toPrecision (amount.toNat * share.parts) ∧
      toPrecision (amount.toNat * share.parts) < (q + 1) * 2 ^ 53 := by
    obtain ⟨-, rounded_le⟩ := toPrecision_near (amount.toNat * share.parts)
    by_cases zero : amount.toNat = 0
    · rw [zero, Nat.zero_mul, toPrecision_of_lt (by omega)]
      rw [zero] at low
      omega
    · obtain ⟨half_lt, lt_twice⟩ := unit_product (Nat.pos_of_ne_zero zero) normal below_one
      have dvd := unit_dvd (n := amount.toNat * share.parts) (by omega) q
      exact ⟨le_toPrecision dvd (by omega), by omega⟩
  have exact_amount : toPrecision amount.toNat = amount.toNat := toPrecision_of_lt (by omega)
  have cut : toPrecision (amount.toNat * share.parts) / 2 ^ 53 = q :=
    Nat.div_eq_of_lt_le within.1 within.2
  rw [minAmountOut, exact_amount, precision, Nat.shiftRight_eq_div_pow, cut]
  exact UInt64.toNat_ofNat_of_lt' (show q < 2 ^ 64 by omega)

/-- The double nearest to 0.9 is a fifth of a `2 ^ 53`rd above it. -/
theorem toNat_nineTenths (amount_le : amount.toNat ≤ 2 ^ 40) :
    (minAmountOut amount .nineTenths).toNat = 9 * amount.toNat / 10 := by
  have parts_eq : Share.nineTenths.parts = 8106479329266893 := rfl
  apply toNat_minAmountOut amount_le
  · omega
  · omega
  · rw [parts_eq]
    omega
  · rw [parts_eq]
    omega

/-- The double nearest to 0.999 is one hundred and twenty-fifth of a `2 ^ 53`rd below it, so the
product with a multiple of a thousand lies below the exact share and has to be rounded up. -/
theorem toNat_allButAThousandth (amount_le : amount.toNat ≤ 2 ^ 40) :
    (minAmountOut amount .allButAThousandth).toNat = 999 * amount.toNat / 1000 := by
  have parts_eq : Share.allButAThousandth.parts = 8998192055486251 := rfl
  apply toNat_minAmountOut amount_le
  · omega
  · omega
  · rw [parts_eq]
    omega
  · rw [parts_eq]
    omega

end Product

end SwapCapture.Slippage
