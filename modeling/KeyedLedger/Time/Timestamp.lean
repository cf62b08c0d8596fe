import KeyedLedger.Time.Date

/-! # Points in time

A timestamp is a date and a time of day in UTC, exact to the nanosecond. The second 60
stands for a leap second at the end of any minute. Two timestamps are the same exactly when
all their fields agree, so every point in time has one written form.

Distances are counted in nanoseconds. Within a day a leap second counts as one; from one
day to another every day has 86400 seconds.
-/

namespace KeyedLedger

/-- A date and a time of day in UTC. -/
structure Timestamp where
  date : Date
  hour : Nat
  minute : Nat
  second : Nat
  nano : Nat
  hour_lt : hour < 24
  minute_lt : minute < 60
  second_le : second ≤ 60
  nano_lt : nano < 1000000000
deriving DecidableEq

namespace Timestamp

/-- Nanoseconds in a second. -/
abbrev nanosPerSecond : Nat := 1000000000

/-- Nanoseconds in a millisecond. -/
abbrev nanosPerMilli : Nat := 1000000

/-- Seconds in a day without leap seconds. -/
abbrev secondsPerDay : Nat := 86400

/-- The timestamp with these numbers, if there is one. -/
def make? (date : Date) (hour minute second nano : Nat) : Option Timestamp :=
  if h : hour < 24 ∧ minute < 60 ∧ second ≤ 60 ∧ nano < nanosPerSecond then
    some ⟨date, hour, minute, second, nano, h.1, h.2.1, h.2.2.1, h.2.2.2⟩
  else none

/-- The seconds of the day that have begun, a leap second counted with the one before it. -/
def secondOfDay (t : Timestamp) : Nat :=
  t.hour * 3600 + t.minute * 60 + min t.second 59

/-- The nanoseconds since `secondOfDay` began: at least a whole second within a leap second. -/
def fraction (t : Timestamp) : Nat :=
  t.nano + if t.second = 60 then nanosPerSecond else 0

/-- The nanoseconds from one point in time to another, negative if it lies before. -/
def since (t start : Timestamp) : Int :=
  let seconds : Int := (t.secondOfDay : Int) - start.secondOfDay
  let leap : Int :=
    if start.secondOfDay < t.secondOfDay ∧ start.second = 60 then 1
    else if t.secondOfDay < start.secondOfDay ∧ t.second = 60 then -1
    else 0
  ((t.date.number - start.date.number) * secondsPerDay + seconds + leap) * nanosPerSecond +
    ((t.fraction : Int) - start.fraction)

/-- The time of day that begins `second` seconds after midnight, on a date. -/
def ofSecond (date : Date) (second nano : Nat) (hs : second < 86400) (hn : nano < nanosPerSecond) :
    Timestamp where
  date := date
  hour := second / 3600
  minute := second / 60 % 60
  second := second % 60
  nano := nano
  hour_lt := by omega
  minute_lt := by omega
  second_le := by omega
  nano_lt := hn

/-- The point in time a number of nanoseconds later. A leap second that is left behind does
not count. -/
def later (t : Timestamp) (nanos : Nat) : Timestamp :=
  if h : t.second = 60 ∧ t.nano + nanos < nanosPerSecond then
    { t with nano := t.nano + nanos, nano_lt := h.2 }
  else
    let total := t.nano + nanos
    let seconds := t.secondOfDay + total / nanosPerSecond
    ofSecond (t.date.later (seconds / 86400)) (seconds % 86400) (total % nanosPerSecond)
      (Nat.mod_lt _ (by decide)) (Nat.mod_lt _ (by decide))

/-- The point in time a number of milliseconds later. -/
def laterMillis (t : Timestamp) (millis : Nat) : Timestamp :=
  t.later (millis * nanosPerMilli)

/-- The point in time a number of nanoseconds earlier. A leap second that is left behind counts
as one. -/
def earlier (t : Timestamp) (nanos : Nat) : Timestamp :=
  if nanos ≤ t.nano then { t with nano := t.nano - nanos, nano_lt := by have := t.nano_lt; omega }
  else
    let begun : Int := t.secondOfDay + if t.second = 60 then 1 else 0
    let total : Int := begun * nanosPerSecond + t.nano - nanos
    let seconds := total / nanosPerSecond
    ofSecond (t.date.earlier (-(seconds / 86400)).toNat) (seconds % 86400).toNat
      (total % nanosPerSecond).toNat (by omega) (by simp only [nanosPerSecond]; omega)

/-- The point in time a number of milliseconds later, or earlier if it is negative. -/
def shift (t : Timestamp) (millis : Int) : Timestamp :=
  if 0 ≤ millis then t.laterMillis millis.toNat else t.earlier (millis.natAbs * nanosPerMilli)

/-- The same time of day read in a zone that is `minutes` minutes ahead of UTC. -/
def ofZone (t : Timestamp) (minutes : Int) : Timestamp :=
  let shifted : Int := t.hour * 60 + t.minute - minutes
  let days := shifted / 1440
  let ofDay := (shifted % 1440).toNat
  { t with
    date := if 0 ≤ days then t.date.later days.toNat else t.date.earlier (-days).toNat
    hour := ofDay / 60
    minute := ofDay % 60
    hour_lt := by omega
    minute_lt := Nat.mod_lt _ (by decide) }

/-- The start of the year 2025. -/
def start2025 : Timestamp :=
  ⟨⟨2025, 1, 1, by decide, by decide, by decide, by decide⟩, 0, 0, 0, 0,
    by decide, by decide, by decide, by decide⟩

instance : Inhabited Timestamp := ⟨start2025⟩

end Timestamp

end KeyedLedger
