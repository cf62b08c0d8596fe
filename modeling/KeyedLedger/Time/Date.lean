/-! # Calendar dates

Dates of the Gregorian calendar, extended over all years. A date is valid by construction.
Moving a date forwards or backwards steps month by month, and `Date.number` counts days, so
that differences of dates are differences of numbers.
-/

namespace KeyedLedger

/-- Leap years are the multiples of four, except for those centuries that are no multiple
of four hundred years. -/
def isLeapYear (year : Int) : Bool :=
  year % 4 = 0 ∧ (year % 100 ≠ 0 ∨ year % 400 = 0)

/-- The days of a month, counting months from one. -/
def daysIn (year : Int) (month : Nat) : Nat :=
  if month = 2 then if isLeapYear year then 29 else 28
  else if month = 4 ∨ month = 6 ∨ month = 9 ∨ month = 11 then 30
  else 31

theorem daysIn_pos (year : Int) (month : Nat) : 0 < daysIn year month := by
  simp only [daysIn]
  split
  · split <;> decide
  · split <;> decide

theorem daysIn_le (year : Int) (month : Nat) : daysIn year month ≤ 31 := by
  simp only [daysIn]
  split
  · split <;> decide
  · split <;> decide

/-- A day of the calendar. -/
structure Date where
  year : Int
  month : Nat
  day : Nat
  month_pos : 1 ≤ month
  month_le : month ≤ 12
  day_pos : 1 ≤ day
  day_le : day ≤ daysIn year month
deriving DecidableEq

namespace Date

/-- The date with these numbers, if there is one. -/
def make? (year : Int) (month day : Nat) : Option Date :=
  if h : 1 ≤ month ∧ month ≤ 12 ∧ 1 ≤ day ∧ day ≤ daysIn year month then
    some ⟨year, month, day, h.1, h.2.1, h.2.2.1, h.2.2.2⟩
  else none

/-- The first day of the following month. -/
def firstOfNext (d : Date) : Date :=
  if h : d.month < 12 then
    ⟨d.year, d.month + 1, 1, by omega, by omega, by omega, daysIn_pos _ _⟩
  else ⟨d.year + 1, 1, 1, by omega, by omega, by omega, daysIn_pos _ _⟩

/-- The last day of the preceding month. -/
def lastOfPrevious (d : Date) : Date :=
  if h : 1 < d.month then
    ⟨d.year, d.month - 1, daysIn d.year (d.month - 1), by omega,
      by have := d.month_le; omega, daysIn_pos _ _, Nat.le_refl _⟩
  else ⟨d.year - 1, 12, daysIn (d.year - 1) 12, by omega, by omega, daysIn_pos _ _, Nat.le_refl _⟩

/-- The date `days` days later. -/
def later (d : Date) (days : Nat) : Date :=
  if h : d.day + days ≤ daysIn d.year d.month then
    { d with day := d.day + days, day_pos := by have := d.day_pos; omega, day_le := h }
  else later d.firstOfNext (days - (daysIn d.year d.month - d.day) - 1)
termination_by days
decreasing_by
  have := d.day_le
  omega

/-- The date `days` days earlier. -/
def earlier (d : Date) (days : Nat) : Date :=
  if h : days < d.day then
    { d with day := d.day - days, day_pos := by omega, day_le := by have := d.day_le; omega }
  else earlier d.lastOfPrevious (days - d.day)
termination_by days
decreasing_by
  have := d.day_pos
  omega

/-- The days of the years before this one, counted from an arbitrary start. -/
def daysBeforeYear (year : Int) : Int :=
  365 * (year - 1) + (year - 1) / 4 - (year - 1) / 100 + (year - 1) / 400

/-- The days of the months of a year before this one. -/
def daysBeforeMonth (year : Int) : (month : Nat) → Nat
  | 0 => 0
  | 1 => 0
  | month + 2 => daysBeforeMonth year (month + 1) + daysIn year (month + 1)

/-- A running number of days: the difference of two numbers is the distance of the dates. -/
def number (d : Date) : Int :=
  daysBeforeYear d.year + daysBeforeMonth d.year d.month + d.day

end Date

end KeyedLedger
