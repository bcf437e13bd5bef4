/-!
# Calendar dates

Dates of the Gregorian calendar, extended backwards, counted in days from the
first of January of the year one.
-/

namespace OneShot.Calendar

/-- A year, a month and a day; not every triple is a date. -/
structure Date where
  year : Nat
  month : Nat
  day : Nat
  deriving Repr, DecidableEq

/-- Whether a year has a twenty-ninth of February. -/
def isLeapYear (year : Nat) : Bool :=
  year % 4 == 0 && (year % 100 != 0 || year % 400 == 0)

def daysInMonth (year month : Nat) : Nat :=
  match month with
  | 2 => if isLeapYear year then 29 else 28
  | 4 | 6 | 9 | 11 => 30
  | _ => 31

def lastYear : Nat := 9999

/-- Whether a triple is a date of the calendar. -/
def Date.Valid (date : Date) : Prop :=
  1 ≤ date.year ∧ date.year ≤ lastYear ∧ 1 ≤ date.month ∧ date.month ≤ 12 ∧
    1 ≤ date.day ∧ date.day ≤ daysInMonth date.year date.month

instance (date : Date) : Decidable date.Valid := by
  unfold Date.Valid; infer_instance

/-- The days of the years before a year. -/
def daysBeforeYear (year : Nat) : Nat :=
  let past := year - 1
  past * 365 + past / 4 - past / 100 + past / 400

/-- The days of a year before a month. -/
def daysBeforeMonth (year : Nat) : Nat → Nat
  | 0 | 1 => 0
  | month + 2 => daysBeforeMonth year (month + 1) + daysInMonth year (month + 1)

def Date.dayNumber (date : Date) : Nat :=
  daysBeforeYear date.year + daysBeforeMonth date.year date.month + (date.day - 1)

/-- The month and the day that lie a number of days into the months from a
given one on. -/
def monthAndDay (year : Nat) : Nat → Nat → Nat → Nat × Nat
  | 0, month, days => (month, days + 1)
  | fuel + 1, month, days =>
      if days < daysInMonth year month then (month, days + 1)
      else monthAndDay year fuel (month + 1) (days - daysInMonth year month)

/-- The year that a day number falls into.  The quotient by the mean length
of a year is that year or the one before or after it. -/
def yearOfDay (days : Nat) : Nat :=
  let estimate := days * 400 / 146097
  if days < daysBeforeYear (estimate + 1) then estimate
  else if days < daysBeforeYear (estimate + 2) then estimate + 1
  else estimate + 2

/-- The date with a given number of days before it. -/
def Date.ofDayNumber (days : Nat) : Date :=
  let year := yearOfDay days
  let (month, day) := monthAndDay year 11 1 (days - daysBeforeYear year)
  ⟨year, month, day⟩

end OneShot.Calendar
