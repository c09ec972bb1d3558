/-
Dates of the Gregorian calendar against a count of days in closed form.

`Date.ofDays` takes whole years and whole months off a count of days.  Here the days up to a date
are counted the other way round, without a loop: years begin in March, so that a leap day is the last
day of its year, and months have 153 days in five.  A month is given by its number since year zero,
and each has as many days as there are up to the next one:

* `Date.Valid` — a day that the calendar has;
* `Date.toDays` — the days from 1970-01-01 to a date;
* `firstOf_succ` — a month is as long as the calendar says;
* `ofDays_spec` — what `Date.ofDays` gives is a date, and lies as many days off;
* `toDays_lt_iff` — later days have later dates.
-/
import Mathlib.Algebra.Ring.Int.Defs
import Mathlib.Algebra.Order.Ring.Int
import Mathlib.Tactic.IntervalCases
import SwapCapture.Calendar

namespace SwapCapture.Calendar

/-! ### Days of the calendar -/

/-- A year that four divides, unless it is a century that `400` does not divide. -/
def IsLeapYear (year : Nat) : Prop := 4 ∣ year ∧ (100 ∣ year → 400 ∣ year)

instance (year : Nat) : Decidable (IsLeapYear year) := inferInstanceAs (Decidable (_ ∧ _))

def daysIn (year month : Nat) : Nat :=
  match month with
  | 2 => if IsLeapYear year then 29 else 28
  | 4 | 6 | 9 | 11 => 30
  | _ => 31

def Date.Valid (d : Date) : Prop :=
  (1 ≤ d.month ∧ d.month ≤ 12) ∧ 1 ≤ d.day ∧ d.day ≤ daysIn d.year d.month

/-- The year of a date if years begin in March: January and February belong to the year before. -/
def Date.marchYear (d : Date) : Int := if d.month ≤ 2 then d.year - 1 else d.year

/-- The months that have passed since the last first of March. -/
def Date.marchMonth (d : Date) : Int := if d.month ≤ 2 then d.month + 9 else d.month - 3

/-- The days from 1970-01-01 to a date, with a leap day at the end of each `marchYear` that has one.
-/
def Date.toDays (d : Date) : Int :=
  365 * d.marchYear + d.marchYear / 4 - d.marchYear / 100 + d.marchYear / 400
    + (153 * d.marchMonth + 2) / 5 + (d.day - 1) - 719468

theorem isLeap_iff {year : Nat} : isLeap year = true ↔ IsLeapYear year := by
  simp [isLeap, IsLeapYear]
  omega

theorem daysIn_le (year month : Nat) : daysIn year month ≤ 31 := by
  unfold daysIn
  split
  · split
    · omega
    · omega
  all_goals omega

/-- The first of March comes when the days of February are over, a leap day among them. -/
theorem toDays_march (year : Nat) :
    Date.toDays ⟨year, 3, 1⟩ = Date.toDays ⟨year, 2, 1⟩ + daysIn year 2 := by
  simp only [Date.toDays, Date.marchYear, Date.marchMonth, daysIn]
  by_cases leap : IsLeapYear year
  · rw [if_pos leap]
    unfold IsLeapYear at leap
    omega
  · rw [if_neg leap]
    unfold IsLeapYear at leap
    omega

theorem toDays_nextMonth {year month : Nat} (pos : 1 ≤ month) (le : month ≤ 11) :
    Date.toDays ⟨year, month + 1, 1⟩ = Date.toDays ⟨year, month, 1⟩ + daysIn year month := by
  by_cases february : month = 2
  · rw [february]
    exact toDays_march year
  · -- both months are in the same year from March on, so only the months count
    interval_cases month
    all_goals simp [Date.toDays, Date.marchYear, Date.marchMonth, daysIn]
    all_goals omega

theorem toDays_nextYear (year : Nat) :
    Date.toDays ⟨year + 1, 1, 1⟩ = Date.toDays ⟨year, 12, 1⟩ + daysIn year 12 := by
  simp [Date.toDays, Date.marchYear, Date.marchMonth, daysIn]
  omega

/-- The month that has number `k` if the months are counted from January of year zero. -/
def firstOf (k : Nat) : Int := Date.toDays ⟨k / 12, k % 12 + 1, 1⟩

/-- The next month starts when the days of this one are over. -/
theorem firstOf_succ (k : Nat) :
    firstOf (k + 1) = firstOf k + daysIn (k / 12) (k % 12 + 1) := by
  by_cases december : k % 12 = 11
  · have next : (k + 1) / 12 = k / 12 + 1 ∧ (k + 1) % 12 = 0 := by omega
    rw [firstOf, firstOf, next.1, next.2, december]
    exact toDays_nextYear (k / 12)
  · have next : (k + 1) / 12 = k / 12 ∧ (k + 1) % 12 = k % 12 + 1 := by omega
    rw [firstOf, firstOf, next.1, next.2]
    exact toDays_nextMonth (Nat.le_add_left 1 _) (by omega)

theorem firstOf_le {k m : Nat} (h : k ≤ m) : firstOf k ≤ firstOf m := by
  induction h with
  | refl => omega
  | step _ ih =>
    rw [Nat.succ_eq_add_one, firstOf_succ]
    omega

def Date.monthNumber (d : Date) : Nat := 12 * d.year + (d.month - 1)

/-- A date lies as far behind `firstOf` its month as its day says. -/
theorem toDays_eq {d : Date} (month_pos : 1 ≤ d.month) (month_le : d.month ≤ 12) :
    d.toDays = firstOf d.monthNumber + (d.day - 1) ∧
      firstOf (d.monthNumber + 1) = firstOf d.monthNumber + daysIn d.year d.month := by
  have year_eq : d.monthNumber / 12 = d.year := by
    rw [Date.monthNumber]
    omega
  have month_eq : d.monthNumber % 12 + 1 = d.month := by
    rw [Date.monthNumber]
    omega
  constructor
  · rw [firstOf, year_eq, month_eq]
    unfold Date.toDays Date.marchYear Date.marchMonth
    simp only [Nat.cast_one]
    omega
  · rw [firstOf_succ, year_eq, month_eq]

/-! ### Dates from days -/

theorem yearLength_eq (year : Nat) :
    yearLength year = if IsLeapYear year then 366 else 365 := by
  simp [yearLength, isLeap_iff]

theorem length_year (year : Nat) :
    firstOf (12 * (year + 1)) = firstOf (12 * year) + yearLength year := by
  have this_january : 12 * year / 12 = year ∧ 12 * year % 12 = 0 := by omega
  have next_january : 12 * (year + 1) / 12 = year + 1 ∧ 12 * (year + 1) % 12 = 0 := by omega
  rw [firstOf, firstOf, this_january.1, this_january.2, next_january.1, next_january.2,
    yearLength_eq]
  simp only [Date.toDays, Date.marchYear, Date.marchMonth]
  by_cases leap : IsLeapYear year
  · rw [if_pos leap]
    unfold IsLeapYear at leap
    omega
  · rw [if_neg leap]
    unfold IsLeapYear at leap
    omega

/-- `splitYears` takes off whole years until the days left lie within one. -/
theorem splitYears_spec (year days : Nat) :
    (splitYears year days).2 < yearLength (splitYears year days).1 ∧
      firstOf (12 * (splitYears year days).1) + (splitYears year days).2
        = firstOf (12 * year) + days := by
  fun_induction splitYears year days with
  | case1 year days within => exact ⟨within, rfl⟩
  | case2 year days beyond ih =>
    obtain ⟨within, same⟩ := ih
    refine ⟨within, ?_⟩
    rw [same, length_year]
    omega

theorem monthLengths_eq (year : Nat) :
    monthLengths year = (List.range' 1 12).map (daysIn year) := by
  simp [monthLengths, List.range', daysIn, ← isLeap_iff]

/-- `splitMonths` takes off whole months until the days left lie within one.  They run out before
the months do if they lie within the `count` months there are. -/
theorem splitMonths_spec {year month count days : Nat} (pos : 1 ≤ month)
    (last : month + count ≤ 13)
    (within : firstOf (12 * year + (month - 1)) + days < firstOf (12 * year + (month - 1) + count))
    {last_month left : Nat}
    (h : splitMonths month days ((List.range' month count).map (daysIn year))
      = (last_month, left)) :
    (1 ≤ last_month ∧ last_month ≤ 12) ∧ left < daysIn year last_month ∧
      firstOf (12 * year + (last_month - 1)) + left = firstOf (12 * year + (month - 1)) + days := by
  induction count generalizing month days with
  -- no month is left, and no day could be
  | zero =>
    rw [Nat.add_zero] at within
    omega
  | succ count ih =>
    rw [List.range'_succ, List.map_cons, splitMonths] at h
    split at h
    · next fits =>
      cases h
      exact ⟨⟨pos, by omega⟩, fits, rfl⟩
    · next beyond =>
      have length_eq : firstOf (12 * year + (month - 1) + 1)
          = firstOf (12 * year + (month - 1)) + daysIn year month :=
        (toDays_eq (d := ⟨year, month, 1⟩) pos (show month ≤ 12 by omega)).2
      have next_month : 12 * year + (month + 1 - 1) = 12 * year + (month - 1) + 1 := by omega
      -- the days left behind this month still end within the months behind it
      have left_over : firstOf (12 * year + (month + 1 - 1)) + (days - daysIn year month : Nat)
          < firstOf (12 * year + (month + 1 - 1) + count) := by
        have same_end : 12 * year + (month - 1) + 1 + count
            = 12 * year + (month - 1) + (count + 1) := by omega
        rw [next_month, length_eq, same_end]
        omega
      have rest := ih (by omega) (by omega) left_over h
      rw [next_month, length_eq] at rest
      omega

theorem Date.ofDays_eq (days : Nat) :
    Date.ofDays days =
      ⟨(splitYears 1970 days).1,
        (splitMonths 1 (splitYears 1970 days).2 (monthLengths (splitYears 1970 days).1)).1,
        (splitMonths 1 (splitYears 1970 days).2 (monthLengths (splitYears 1970 days).1)).2 + 1⟩ :=
  rfl

/-- What `Date.ofDays` counts off is a date, and it lies `days` after the start of 1970. -/
theorem ofDays_spec (days : Nat) :
    (Date.ofDays days).Valid ∧ (Date.ofDays days).toDays = days := by
  obtain ⟨in_year, days_eq⟩ := splitYears_spec 1970 days
  rw [Date.ofDays_eq]
  generalize splitYears 1970 days = years at in_year days_eq
  obtain ⟨year, left⟩ := years
  simp only at in_year days_eq ⊢
  have epoch : firstOf (12 * 1970) = 0 := rfl
  -- what is left of the days lies within the twelve months of its year
  have in_months : firstOf (12 * year + (1 - 1)) + left < firstOf (12 * year + (1 - 1) + 12) := by
    have next := length_year year
    rw [Nat.mul_succ] at next
    rw [Nat.sub_self, Nat.add_zero]
    omega
  generalize months_eq : splitMonths 1 left (monthLengths year) = months
  obtain ⟨month, rest⟩ := months
  simp only
  rw [monthLengths_eq] at months_eq
  obtain ⟨month_ok, day_lt, same⟩ :=
    splitMonths_spec (Nat.le_refl 1) (Nat.le_refl 13) in_months months_eq
  have in_month : Date.toDays ⟨year, month, rest + 1⟩
      = firstOf (12 * year + (month - 1)) + ((rest + 1 : Nat) - 1) :=
    (toDays_eq month_ok.1 month_ok.2).1
  refine ⟨⟨month_ok, Nat.le_add_left 1 rest, day_lt⟩, ?_⟩
  rw [Nat.sub_self, Nat.add_zero] at same
  omega

/-! ### The order of dates -/

/-- Dates lie in time as their years, months and days say, so `Date.toDays` tells them apart. -/
theorem toDays_lt_iff {a b : Date} (ha : a.Valid) (hb : b.Valid) :
    a.toDays < b.toDays ↔ a.year < b.year ∨ a.year = b.year ∧
      (a.month < b.month ∨ a.month = b.month ∧ a.day < b.day) := by
  obtain ⟨⟨a_pos, a_le⟩, a_day_pos, a_day_le⟩ := ha
  obtain ⟨⟨b_pos, b_le⟩, b_day_pos, b_day_le⟩ := hb
  obtain ⟨a_eq, a_next⟩ := toDays_eq a_pos a_le
  obtain ⟨b_eq, b_next⟩ := toDays_eq b_pos b_le
  have a_number : a.monthNumber = 12 * a.year + (a.month - 1) := rfl
  have b_number : b.monthNumber = 12 * b.year + (b.month - 1) := rfl
  -- in different months the first of the later month lies between the two
  rcases Nat.lt_trichotomy a.monthNumber b.monthNumber with before | same | behind
  · have between := firstOf_le (Nat.succ_le_of_lt before)
    rw [Nat.succ_eq_add_one, a_next] at between
    omega
  · rw [← same] at b_eq
    omega
  · have between := firstOf_le (Nat.succ_le_of_lt behind)
    rw [Nat.succ_eq_add_one, b_next] at between
    omega

end SwapCapture.Calendar
