/-
Integers read from decimal text.

The text is read from left to right and the first thing wrong with it decides what is reported:
a character that is no digit, or a value that leaves the range.  A sign alone is no number.  A
plus sign is allowed everywhere; a minus sign only where negative numbers are in the range, and
elsewhere it counts as a character that is no digit.

* `Text.readUnsigned` — a number from zero to a limit;
* `Text.readSigned` — a number of a two's complement range;
* `Text.IntegerFault` — why a text is refused.
-/
import SwapCapture.Text.Digits

namespace SwapCapture.Text

inductive IntegerFault where
  | empty
  | invalidDigit
  | tooLarge
  | tooSmall
deriving DecidableEq, Repr

def IntegerFault.message : IntegerFault → String
  | .empty => "cannot parse integer from empty string"
  | .invalidDigit => "invalid digit found in string"
  | .tooLarge => "number too large to fit in target type"
  | .tooSmall => "number too small to fit in target type"

/-- The digits of `text` behind those read so far, whose value is `value`.  A value above `limit`
is the fault `overflow` at the digit that brings it about. -/
def readDigits (limit : Nat) (overflow : IntegerFault) :
    (value : Nat) → (text : List Char) → Except IntegerFault Nat
  | value, [] => .ok value
  | value, c :: rest =>
    match digit? 10 c with
    | none => .error .invalidDigit
    | some d =>
      if value * 10 + d ≤ limit then readDigits limit overflow (value * 10 + d) rest
      else .error overflow

/-- A number from zero to `limit`. -/
def readUnsigned (limit : Nat) (text : List Char) : Except IntegerFault Nat :=
  match text with
  | [] => .error .empty
  | ['+'] => .error .invalidDigit
  | '+' :: digits => readDigits limit .tooLarge 0 digits
  | digits => readDigits limit .tooLarge 0 digits

/-- A number from `-limit - 1` to `limit`. -/
def readSigned (limit : Nat) (text : List Char) : Except IntegerFault Int :=
  match text with
  | ['-'] => .error .invalidDigit
  | '-' :: digits => (fun n : Nat => -(n : Int)) <$> readDigits (limit + 1) .tooSmall 0 digits
  | text => (fun n : Nat => (n : Int)) <$> readUnsigned limit text

end SwapCapture.Text
