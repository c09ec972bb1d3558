/-
Numbers as text of a fixed least width, and digits read back.

* `Text.decimal`, `Text.hex` — a number in base ten or sixteen, filled up with zeros;
* `Text.digit?` — the value of a character as a digit of a base up to sixteen;
* `Text.decimalValue?` — the number that some decimal digits stand for.
-/
namespace SwapCapture.Text

/-- `n` in base ten, with zeros in front up to `width` characters. -/
def decimal (width n : Nat) : String := String.ofList ((Nat.toDigits 10 n).leftpad width '0')

/-- `n` in base sixteen, in small letters, with zeros in front up to `width` characters. -/
def hex (width n : Nat) : String := String.ofList ((Nat.toDigits 16 n).leftpad width '0')

/-- `n` in base ten, with blanks in front up to `width` characters. -/
def decimalRight (width n : Nat) : String :=
  String.ofList ((Nat.toDigits 10 n).leftpad width ' ')

/-- The number that `c` stands for, whatever the base: ASCII digits, then letters of either case. -/
def digitValue? (c : Char) : Option Nat :=
  if '0' ≤ c ∧ c ≤ '9' then some (c.toNat - '0'.toNat)
  else if 'a' ≤ c ∧ c ≤ 'z' then some (c.toNat - 'a'.toNat + 10)
  else if 'A' ≤ c ∧ c ≤ 'Z' then some (c.toNat - 'A'.toNat + 10)
  else none

/-- The value of `c` as a digit in `base`. -/
def digit? (base : Nat) (c : Char) : Option Nat :=
  match digitValue? c with
  | some v => if v < base then some v else none
  | none => none

/-- The number that `digits` in base ten stand for.  No digits stand for zero. -/
def decimalValue? (digits : List Char) : Option Nat :=
  digits.foldl (fun value c => do pure ((← value) * 10 + (← digit? 10 c))) (some 0)

end SwapCapture.Text
