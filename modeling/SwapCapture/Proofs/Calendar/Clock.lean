/-
The text of a moment.

A moment is shown in 27 characters, with the larger units in front, all of them in a fixed width.
So its text can be read back by the places of its characters, and texts compare as moments do:

* `Moment.Valid` — a moment that the calendar and the clock have;
* `Moment.toMillis` — the milliseconds since the start of 1970, counted through `Date.toDays`;
* `Moment.ofText?` — a moment read back from its text;
* `after?_spec` — which moment there is after some time, and up to when there is one;
* `ofText?_text`, `text_lt_iff` — the text of a moment read back and compared;
* `clockText_exact` — the text of any 32-bit time.
-/
import Mathlib.Data.String.Basic
import SwapCapture.Proofs.Calendar.Civil
import SwapCapture.Proofs.Text.Decimals

namespace SwapCapture.Calendar

open Text (decimalValue?)

namespace Moment

/-! ### Moments -/

def Valid (m : Moment) : Prop :=
  m.date.Valid ∧ m.hour < 24 ∧ m.minute < 60 ∧ m.second < 60 ∧ m.milli < 1000

/-- The milliseconds from the start of 1970 to `m`. -/
def toMillis (m : Moment) : Int :=
  (((m.date.toDays * 24 + m.hour) * 60 + m.minute) * 60 + m.second) * 1000 + m.milli

/-- The moment that `text` shows: numbers of four, two and three digits with the signs between them
that belong there. -/
def ofText? (text : String) : Option Moment :=
  match text.toList with
  | [y₁, y₂, y₃, y₄, '-', o₁, o₂, '-', d₁, d₂, ' ', h₁, h₂, ':', m₁, m₂, ':', s₁, s₂,
      '.', f₁, f₂, f₃, ' ', 'U', 'T', 'C'] => do
    let date : Date :=
      ⟨← decimalValue? [y₁, y₂, y₃, y₄], ← decimalValue? [o₁, o₂], ← decimalValue? [d₁, d₂]⟩
    pure ⟨date, ← decimalValue? [h₁, h₂], ← decimalValue? [m₁, m₂], ← decimalValue? [s₁, s₂],
      ← decimalValue? [f₁, f₂, f₃]⟩
  | _ => none

/-! ### Moments from the passing of time -/

/-- The year of a day before the year 10000 has four digits. -/
theorem year_lt {d : Date} (h : d.Valid) (early : d.toDays < 2932897) : d.year < 10000 := by
  obtain ⟨⟨month_pos, month_le⟩, day_pos, -⟩ := h
  have first_le := (toDays_eq month_pos month_le).1
  have end_of_time : firstOf 120000 = 2932897 := rfl
  by_contra late
  have number_le : 120000 ≤ d.monthNumber := by
    rw [Date.monthNumber]
    omega
  have mono := firstOf_le number_le
  omega

/-- There is a moment up to `lastSecond`, and it lies as much after the start of 1970 as it is meant
to, less than a millisecond apart. -/
theorem after?_spec {seconds micros : Nat} (early : seconds + micros / 1000000 ≤ lastSecond) :
    ∃ m, after? seconds micros = some m ∧ m.Valid ∧ m.date.year < 10000 ∧
      m.toMillis = ((seconds * 1000000 + micros) / 1000 : Nat) := by
  unfold lastSecond at early
  obtain ⟨valid, days_eq⟩ := ofDays_spec ((seconds + micros / 1000000) / 86400)
  refine ⟨_, if_pos early, ⟨valid, ?_⟩, ?_, ?_⟩
  · simp only
    omega
  · apply year_lt valid
    rw [days_eq]
    omega
  · simp only [toMillis, days_eq]
    omega

/-! ### Texts of moments -/

/-- The characters of `text`, in fields of fixed width. -/
def shown (m : Moment) : List Char :=
  Text.fixedDigits 4 m.date.year ++ '-' :: (Text.fixedDigits 2 m.date.month ++
    '-' :: (Text.fixedDigits 2 m.date.day ++ ' ' :: (Text.fixedDigits 2 m.hour ++
      ':' :: (Text.fixedDigits 2 m.minute ++ ':' :: (Text.fixedDigits 2 m.second ++
        '.' :: (Text.fixedDigits 3 m.milli ++ [' ', 'U', 'T', 'C']))))))

/-- The numbers of a moment fit into the fields of its `text`. -/
theorem Valid.fits {m : Moment} (h : m.Valid) (year_lt : m.date.year < 10000) :
    m.date.year < 10 ^ 4 ∧ m.date.month < 10 ^ 2 ∧ m.date.day < 10 ^ 2 ∧ m.hour < 10 ^ 2 ∧
      m.minute < 10 ^ 2 ∧ m.second < 10 ^ 2 ∧ m.milli < 10 ^ 3 := by
  obtain ⟨⟨month_ok, day_ok⟩, time_ok⟩ := h
  have day_le := daysIn_le m.date.year m.date.month
  omega

theorem toList_text {m : Moment} (h : m.Valid) (year_lt : m.date.year < 10000) :
    m.text.toList = m.shown := by
  obtain ⟨year, month, day, hour, minute, second, milli⟩ := h.fits year_lt
  rw [shown, ← Text.toList_decimal (by omega) year, ← Text.toList_decimal (by omega) month,
    ← Text.toList_decimal (by omega) day, ← Text.toList_decimal (by omega) hour,
    ← Text.toList_decimal (by omega) minute, ← Text.toList_decimal (by omega) second,
    ← Text.toList_decimal (by omega) milli]
  simp [text, Date.text, toString]

theorem length_text {m : Moment} (h : m.Valid) (year_lt : m.date.year < 10000) :
    m.text.length = 27 := by
  rw [← String.length_toList, toList_text h year_lt]
  simp [shown]

/-- `ofText?` finds the moment that a text was made of. -/
theorem ofText?_text {m : Moment} (h : m.Valid) (year_lt : m.date.year < 10000) :
    ofText? m.text = some m := by
  obtain ⟨year, month, day, hour, minute, second, milli⟩ := h.fits year_lt
  have year_read := Text.decimalValue?_fixedDigits year
  have month_read := Text.decimalValue?_fixedDigits month
  have day_read := Text.decimalValue?_fixedDigits day
  have hour_read := Text.decimalValue?_fixedDigits hour
  have minute_read := Text.decimalValue?_fixedDigits minute
  have second_read := Text.decimalValue?_fixedDigits second
  have milli_read := Text.decimalValue?_fixedDigits milli
  rw [ofText?, toList_text h year_lt, shown]
  simp only [Text.fixedDigits, List.nil_append, List.cons_append] at *
  simp only [year_read, month_read, day_read, hour_read, minute_read, second_read, milli_read]
  rfl

/-- Moments lie in time as their texts in the lexicographic order. -/
theorem text_lt_iff {a b : Moment} (ha : a.Valid) (hb : b.Valid) (ha' : a.date.year < 10000)
    (hb' : b.date.year < 10000) : a.text < b.text ↔ a.toMillis < b.toMillis := by
  obtain ⟨a_year, a_month, a_day, a_hour, a_minute, a_second, a_milli⟩ := ha.fits ha'
  obtain ⟨b_year, b_month, b_day, b_hour, b_minute, b_second, b_milli⟩ := hb.fits hb'
  have dates := toDays_lt_iff ha.1 hb.1
  have dates' := toDays_lt_iff hb.1 ha.1
  -- field by field the texts compare as the numbers, and these as the times
  rw [String.lt_iff_toList_lt, toList_text ha ha', toList_text hb hb', shown, shown,
    Text.field_lt_field_iff a_year b_year, Text.field_lt_field_iff a_month b_month,
    Text.field_lt_field_iff a_day b_day, Text.field_lt_field_iff a_hour b_hour,
    Text.field_lt_field_iff a_minute b_minute, Text.field_lt_field_iff a_second b_second,
    Text.field_lt_field_iff a_milli b_milli]
  obtain ⟨-, a_time⟩ := ha
  obtain ⟨-, b_time⟩ := hb
  simp only [List.lt_irrefl, and_false, or_false, toMillis]
  omega

end Moment

/-! ### The clock -/

/-- A time of 32 bits on both sides, in milliseconds since the start of 1970. -/
def millisOf (seconds micros : UInt32) : Nat :=
  (seconds.toNat * 1000000 + micros.toNat) / 1000

/-- There is a moment at every time of 32 bits, so `clockText` always has one to show. -/
theorem exists_moment (seconds micros : UInt32) :
    ∃ m, Moment.after? seconds.toNat micros.toNat = some m ∧
      clockText seconds micros = m.text ∧ m.Valid ∧ m.date.year < 10000 ∧
      m.toMillis = millisOf seconds micros := by
  have seconds_lt : seconds.toNat < 2 ^ 32 := seconds.toNat_lt
  have micros_lt : micros.toNat < 2 ^ 32 := micros.toNat_lt
  obtain ⟨m, found, spec⟩ := @Moment.after?_spec seconds.toNat micros.toNat
    (by unfold Moment.lastSecond; omega)
  refine ⟨m, found, ?_, spec⟩
  rw [clockText, found]

/-- **The clock shows the calendar of UTC.** Every time of 32 bits has a moment, so that `clockText`
never shows the bare numbers.  Its text has 27 characters, from which `ofText?` reads the moment
back: a day of the calendar and a time of that day, as many whole milliseconds after the start of
1970 as the time says (`millisOf`), however many seconds its microseconds make up.  Texts are in
order, and equal, just as their times in milliseconds are. -/
theorem clockText_exact (seconds micros : UInt32) :
    ∃ m, Moment.after? seconds.toNat micros.toNat = some m ∧
      clockText seconds micros = m.text ∧
      (clockText seconds micros).length = 27 ∧
      Moment.ofText? (clockText seconds micros) = some m ∧
      m.Valid ∧
      m.toMillis = ((seconds.toNat * 1000000 + micros.toNat) / 1000 : Nat) ∧
      ∀ seconds' micros',
        (clockText seconds micros < clockText seconds' micros' ↔
          millisOf seconds micros < millisOf seconds' micros') ∧
        (clockText seconds micros = clockText seconds' micros' ↔
          millisOf seconds micros = millisOf seconds' micros') := by
  obtain ⟨m, found, shown, valid, year_lt, millis⟩ := exists_moment seconds micros
  refine ⟨m, found, shown, ?_, ?_, valid, millis, ?_⟩
  · rw [shown, Moment.length_text valid year_lt]
  · rw [shown, Moment.ofText?_text valid year_lt]
  · intro seconds' micros'
    obtain ⟨m', -, shown', valid', year_lt', millis'⟩ := exists_moment seconds' micros'
    have less := Moment.text_lt_iff valid valid' year_lt year_lt'
    have greater := Moment.text_lt_iff valid' valid year_lt' year_lt
    rw [millis, millis', Int.ofNat_lt] at less greater
    rw [shown, shown']
    refine ⟨less, ?_⟩
    -- two texts are the same if neither is less
    rw [le_antisymm_iff, ← not_lt, ← not_lt, less, greater]
    omega

end SwapCapture.Calendar
