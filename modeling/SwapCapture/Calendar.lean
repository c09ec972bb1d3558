/-
Dates of the Gregorian calendar, from a count of days.

Years are counted off from 1970 and months from January, each as long as it still fits into the
days that are left.

* `Calendar.Date.ofDays` — the date a number of days after 1970-01-01;
* `Calendar.Moment.after?` — the moment some time after the start of 1970, in UTC;
* `Calendar.clockText` — its text, to the millisecond.
-/
import SwapCapture.Text.Digits

namespace SwapCapture.Calendar

def isLeap (year : Nat) : Bool := year % 4 = 0 && (year % 100 ≠ 0 || year % 400 = 0)

def yearLength (year : Nat) : Nat := if isLeap year then 366 else 365

/-- The days of the months of `year`, from January on. -/
def monthLengths (year : Nat) : List Nat :=
  [31, if isLeap year then 29 else 28, 31, 30, 31, 30, 31, 31, 30, 31, 30, 31]

theorem yearLength_pos (year : Nat) : 0 < yearLength year := by
  unfold yearLength
  split <;> decide

/-- A day of the calendar; `month` and `day` are counted from one. -/
structure Date where
  year : Nat
  month : Nat
  day : Nat
deriving DecidableEq, Repr

/-- The year that lies `days` after the start of `year`, and the days left in it. -/
def splitYears (year days : Nat) : Nat × Nat :=
  if days < yearLength year then (year, days)
  else splitYears (year + 1) (days - yearLength year)
termination_by days
decreasing_by
  have := yearLength_pos year
  omega

/-- The month that lies `days` after the start of `month`, and the days left in it. -/
def splitMonths (month days : Nat) : List Nat → Nat × Nat
  | [] => (month, days)
  | length :: rest =>
    if days < length then (month, days) else splitMonths (month + 1) (days - length) rest

/-- The date `days` after 1970-01-01. -/
def Date.ofDays (days : Nat) : Date :=
  let (year, days) := splitYears 1970 days
  let (month, days) := splitMonths 1 days (monthLengths year)
  ⟨year, month, days + 1⟩

def Date.text (d : Date) : String :=
  s!"{Text.decimal 4 d.year}-{Text.decimal 2 d.month}-{Text.decimal 2 d.day}"

structure Moment where
  date : Date
  hour : Nat
  minute : Nat
  second : Nat
  milli : Nat
deriving DecidableEq, Repr

namespace Moment

/-- The last second, counted from 1970, that has a place in the calendar: a `year` has four digits.
-/
def lastSecond : Nat := 253402300799

/-- The moment `micros` microseconds after second `seconds` of 1970, in UTC.  What is left below
a millisecond is cut off. -/
def after? (seconds micros : Nat) : Option Moment :=
  let total := seconds + micros / 1000000
  if total ≤ lastSecond then
    some {
      date := Date.ofDays (total / 86400)
      hour := total % 86400 / 3600
      minute := total % 3600 / 60
      second := total % 60
      milli := micros % 1000000 / 1000 }
  else none

def text (m : Moment) : String :=
  let hour := Text.decimal 2 m.hour
  let minute := Text.decimal 2 m.minute
  let second := Text.decimal 2 m.second
  s!"{m.date.text} {hour}:{minute}:{second}.{Text.decimal 3 m.milli} UTC"

end Moment

/-- The moment `micros` microseconds after second `seconds`, or both numbers as they are where the
calendar has no place for it. -/
def clockText (seconds micros : UInt32) : String :=
  match Moment.after? seconds.toNat micros.toNat with
  | some moment => moment.text
  | none => s!"{seconds.toNat}.{Text.decimal 6 micros.toNat}"

end SwapCapture.Calendar
