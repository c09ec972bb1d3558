/-
Decimal numbers of no fixed width, read back as integers.

The readers go over the digits from the left and refuse a value as soon as it leaves the range.  The
values on the way to a number are no larger than the number, so a number in the range gets through:

* `toList_decimal_one`, `toList_toString` — a number is written in its digits and nothing else;
* `exists_toDigits_cons`, `toDigits_head_ne_zero` — the first digit of a number;
* `readDigits_toDigits` — the digits of a number in the range are read back;
* `readUnsigned_toDigits`, `readSigned_toDigits` — and none of them is taken for a sign.
-/
import SwapCapture.Proofs.Text.Decimals
import SwapCapture.Text.Integer

namespace SwapCapture.Text

/-! ### Digits -/

theorem toList_decimal_one (n : Nat) : (decimal 1 n).toList = Nat.toDigits 10 n := by
  have some_digit : 1 ≤ (Nat.toDigits 10 n).length := List.length_pos_iff.mpr Nat.toDigits_ne_nil
  rw [decimal, String.toList_ofList, List.leftpad, Nat.sub_eq_zero_of_le some_digit]
  rfl

theorem toList_toString (n : Nat) : (toString n).toList = Nat.toDigits 10 n :=
  String.toList_ofList

/-- What a number is written in starts with a digit. -/
theorem exists_toDigits_cons (n : Nat) :
    ∃ c rest, Nat.toDigits 10 n = c :: rest ∧ c.isDigit := by
  have some_digit : Nat.toDigits 10 n ≠ [] := Nat.toDigits_ne_nil
  obtain ⟨c, rest, digits⟩ := List.exists_cons_of_ne_nil some_digit
  have mem : c ∈ Nat.toDigits 10 n := by
    rw [digits]
    exact List.mem_cons_self
  exact ⟨c, rest, digits, Nat.isDigit_of_mem_toDigits (by omega) (by omega) mem⟩

/-- There is no `0` in front of a number. -/
theorem toDigits_head_ne_zero {n : Nat} {c : Char} {rest : List Char} (pos : 0 < n)
    (h : Nat.toDigits 10 n = c :: rest) : c ≠ '0' := by
  induction n using Nat.strong_induction_on generalizing rest with
  | h n ih =>
    by_cases small : n < 10
    · rw [Nat.toDigits_of_lt_base small, List.cons.injEq] at h
      rw [← h.1]
      intro zero
      have code := Nat.toNat_digitChar_of_lt_ten small
      rw [zero] at code
      simp at code
      omega
    · rw [Nat.toDigits_of_base_le (by omega) (by omega)] at h
      obtain ⟨first, more, digits, -⟩ := exists_toDigits_cons (n / 10)
      rw [digits, List.cons_append, List.cons.injEq] at h
      obtain ⟨rfl, -⟩ := h
      -- the first digit is that of the tenth part, which is not zero either
      exact ih (n / 10) (by omega) (by omega) digits

/-! ### Integers -/

variable {limit : Nat}

/-- One more digit behind those that `readDigits` has read, as long as the value stays in the range.
-/
theorem readDigits_concat {overflow : IntegerFault} {front : List Char} {start v d : Nat}
    (h : readDigits limit overflow start front = .ok v) (digit : d < 10)
    (within : v * 10 + d ≤ limit) :
    readDigits limit overflow start (front ++ [Nat.digitChar d]) = .ok (v * 10 + d) := by
  induction front generalizing start with
  | nil =>
    rw [readDigits] at h
    cases h
    simp only [List.nil_append, readDigits, digit?_digitChar digit, if_pos within]
  -- the digits in front are read as before, and the last one comes after all of them
  | cons c front ih =>
    rw [readDigits] at h
    rw [List.cons_append, readDigits]
    cases read : digit? 10 c with
    | none => simp [read] at h
    | some first =>
      simp only [read] at h ⊢
      split at h
      · next small =>
        rw [if_pos small]
        exact ih h
      · cases h

theorem readDigits_toDigits (overflow : IntegerFault) {n : Nat} (within : n ≤ limit) :
    readDigits limit overflow 0 (Nat.toDigits 10 n) = .ok n := by
  induction n using Nat.strong_induction_on with
  | h n ih =>
    by_cases small : n < 10
    · have nothing_read : readDigits limit overflow 0 [] = .ok 0 := rfl
      rw [Nat.toDigits_of_lt_base small]
      simpa using readDigits_concat nothing_read small (by omega)
    · have high := ih (n / 10) (by omega) (by omega)
      have last : n % 10 < 10 := Nat.mod_lt n (by omega)
      rw [Nat.toDigits_of_base_le (by omega) (by omega), readDigits_concat high last (by omega),
        Nat.div_add_mod']

theorem readUnsigned_toDigits {n : Nat} (within : n ≤ limit) :
    readUnsigned limit (Nat.toDigits 10 n) = .ok n := by
  have read := readDigits_toDigits .tooLarge within
  obtain ⟨c, rest, digits, digit⟩ := exists_toDigits_cons n
  rw [digits] at read ⊢
  unfold readUnsigned
  split
  · simp_all
  · simp_all
  · simp_all
  · exact read

theorem readSigned_toDigits {n : Nat} (within : n ≤ limit) :
    readSigned limit (Nat.toDigits 10 n) = .ok (n : Int) := by
  have read := readUnsigned_toDigits within
  obtain ⟨c, rest, digits, digit⟩ := exists_toDigits_cons n
  rw [digits] at read ⊢
  unfold readSigned
  split
  · simp_all
  · simp_all
  · rw [read]
    rfl

end SwapCapture.Text
