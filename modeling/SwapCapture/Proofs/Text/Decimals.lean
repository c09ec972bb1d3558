/-
Decimal numbers in a fixed width, their order, and decimal numbers read back.

A number that fits its width is written in that many digits, zeros included.  Texts of the same
width compare as the numbers do, digit by digit from the left, and so do texts that are made of
several such fields:

* `fixedDigits`, `toList_decimal` — the digits of a number that fits its width;
* `decimalValue?_fixedDigits`, `decimalValue?_toDigits` — numbers read back from their digits;
* `append_lt_append_iff` — the order of texts whose first fields are of the same width;
* `fixedDigits_lt_iff`, `field_lt_field_iff` — fixed digits compare as numbers, and so do texts that
  start with them.
-/
import Mathlib.Algebra.Ring.Nat
import SwapCapture.Text.Digits

namespace SwapCapture.Text

/-! ### Digits in a fixed width -/

/-- The last `width` decimal digits of `n`. -/
def fixedDigits : (width n : Nat) → List Char
  | 0, _ => []
  | width + 1, n => fixedDigits width (n / 10) ++ [Nat.digitChar (n % 10)]

@[simp] theorem length_fixedDigits (width n : Nat) : (fixedDigits width n).length = width := by
  induction width generalizing n with
  | zero => rfl
  | succ width ih => simp [fixedDigits, ih]

theorem fixedDigits_zero (width : Nat) : fixedDigits width 0 = List.replicate width '0' := by
  induction width with
  | zero => rfl
  | succ width ih =>
    rw [fixedDigits, ih, List.replicate_succ']
    rfl

/-- A number that fits is filled up with zeros to its `fixedDigits`. -/
theorem leftpad_toDigits {width n : Nat} (h : n < 10 ^ (width + 1)) :
    (Nat.toDigits 10 n).leftpad (width + 1) '0' = fixedDigits (width + 1) n := by
  induction width generalizing n with
  | zero =>
    have small : n < 10 := by simpa using h
    rw [Nat.toDigits_of_lt_base small, fixedDigits, Nat.mod_eq_of_lt small]
    rfl
  | succ width ih =>
    rw [fixedDigits]
    by_cases small : n < 10
    · -- all but the last digit are zeros
      rw [Nat.toDigits_of_lt_base small, Nat.div_eq_of_lt small, Nat.mod_eq_of_lt small,
        fixedDigits_zero]
      rfl
    · have high : n / 10 < 10 ^ (width + 1) := by
        rw [Nat.div_lt_iff_lt_mul (by omega), ← Nat.pow_succ]
        exact h
      rw [Nat.toDigits_of_base_le (by omega) (by omega), ← ih high]
      simp [List.leftpad]

theorem toList_decimal {width n : Nat} (pos : 0 < width) (h : n < 10 ^ width) :
    (decimal width n).toList = fixedDigits width n := by
  obtain ⟨width, rfl⟩ : ∃ w, width = w + 1 := ⟨width - 1, by omega⟩
  rw [decimal, String.toList_ofList, leftpad_toDigits h]

/-! ### Numbers read back -/

theorem digit?_digitChar {v : Nat} (h : v < 10) : digit? 10 (Nat.digitChar v) = some v := by
  have all : ∀ v : Fin 10, digit? 10 (Nat.digitChar v.val) = some v.val := by decide
  exact all ⟨v, h⟩

/-- One more digit behind those that were read. -/
theorem decimalValue?_concat {front : List Char} {v d : Nat} (h : decimalValue? front = some v)
    (h' : d < 10) : decimalValue? (front ++ [Nat.digitChar d]) = some (v * 10 + d) := by
  rw [decimalValue?] at h
  rw [decimalValue?, List.foldl_append, h, List.foldl_cons, List.foldl_nil, digit?_digitChar h']
  rfl

theorem decimalValue?_fixedDigits {width n : Nat} (h : n < 10 ^ width) :
    decimalValue? (fixedDigits width n) = some n := by
  induction width generalizing n with
  | zero =>
    obtain rfl : n = 0 := by simpa using h
    rfl
  | succ width ih =>
    rw [Nat.pow_succ] at h
    have high := ih (Nat.div_lt_of_lt_mul (by omega) : n / 10 < 10 ^ width)
    rw [fixedDigits, decimalValue?_concat high (Nat.mod_lt n (by omega)), Nat.div_add_mod']

theorem decimalValue?_toDigits (n : Nat) : decimalValue? (Nat.toDigits 10 n) = some n := by
  induction n using Nat.strong_induction_on with
  | h n ih =>
    by_cases small : n < 10
    · rw [Nat.toDigits_of_lt_base small]
      have nothing_read : decimalValue? [] = some 0 := rfl
      simpa using decimalValue?_concat nothing_read small
    · have high := ih (n / 10) (by omega)
      rw [Nat.toDigits_of_base_le (by omega) (by omega),
        decimalValue?_concat high (Nat.mod_lt n (by omega)), Nat.div_add_mod']

/-! ### The order of texts -/

/-- Of two texts with first fields of the same width, the fields behind them count only where the
first ones are the same. -/
theorem append_lt_append_iff {xs ys : List Char} (same : xs.length = ys.length)
    (zs ws : List Char) : xs ++ zs < ys ++ ws ↔ xs < ys ∨ xs = ys ∧ zs < ws := by
  induction xs generalizing ys with
  | nil =>
    obtain rfl : ys = [] := List.eq_nil_of_length_eq_zero same.symm
    simp
  | cons x xs ih =>
    cases ys with
    -- the first fields have the same length, so they end together
    | nil => simp at same
    | cons y ys =>
      have rest := ih (by simpa using same)
      simp only [List.cons_append, List.cons_lt_cons_iff, rest, List.cons.injEq]
      constructor
      · rintro (less | ⟨rfl, less | ⟨rfl, less⟩⟩)
        · exact .inl (.inl less)
        · exact .inl (.inr ⟨rfl, less⟩)
        · exact .inr ⟨⟨rfl, rfl⟩, less⟩
      · rintro ((less | ⟨rfl, less⟩) | ⟨⟨rfl, rfl⟩, less⟩)
        · exact .inl less
        · exact .inr ⟨rfl, .inl less⟩
        · exact .inr ⟨rfl, .inr ⟨rfl, less⟩⟩

theorem digitChar_lt_iff {a b : Nat} (ha : a < 10) (hb : b < 10) :
    Nat.digitChar a < Nat.digitChar b ↔ a < b := by
  show (Nat.digitChar a).toNat < (Nat.digitChar b).toNat ↔ a < b
  rw [Nat.toNat_digitChar_of_lt_ten ha, Nat.toNat_digitChar_of_lt_ten hb]
  omega

/-- Digits that are read back are those of one number only. -/
theorem fixedDigits_inj {width a b : Nat} (ha : a < 10 ^ width) (hb : b < 10 ^ width) :
    fixedDigits width a = fixedDigits width b ↔ a = b := by
  constructor
  · intro same
    have read := decimalValue?_fixedDigits ha
    rw [same, decimalValue?_fixedDigits hb] at read
    exact (Option.some.inj read).symm
  · rintro rfl
    rfl

theorem fixedDigits_lt_iff {width a b : Nat} (ha : a < 10 ^ width) (hb : b < 10 ^ width) :
    fixedDigits width a < fixedDigits width b ↔ a < b := by
  induction width generalizing a b with
  | zero => simp_all
  | succ width ih =>
    rw [Nat.pow_succ] at ha hb
    have ha' : a / 10 < 10 ^ width := Nat.div_lt_of_lt_mul (by omega)
    have hb' : b / 10 < 10 ^ width := Nat.div_lt_of_lt_mul (by omega)
    rw [fixedDigits, fixedDigits, append_lt_append_iff (by simp), ih ha' hb',
      fixedDigits_inj ha' hb', List.cons_lt_cons_iff]
    simp only [digitChar_lt_iff (Nat.mod_lt a (show 0 < 10 by omega))
      (Nat.mod_lt b (show 0 < 10 by omega)), List.lt_irrefl, and_false, or_false]
    omega

/-- Two texts that start with a number and a `divider` compare as their numbers, and as what is
behind the divider if the numbers are the same. -/
theorem field_lt_field_iff {width a b : Nat} (ha : a < 10 ^ width) (hb : b < 10 ^ width)
    (divider : Char) (zs ws : List Char) :
    fixedDigits width a ++ divider :: zs < fixedDigits width b ++ divider :: ws
      ↔ a < b ∨ a = b ∧ zs < ws := by
  rw [append_lt_append_iff (by simp), fixedDigits_lt_iff ha hb, fixedDigits_inj ha hb,
    List.cons_lt_cons_iff]
  simp

end SwapCapture.Text
