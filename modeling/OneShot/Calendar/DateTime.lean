import OneShot.Calendar.Date

/-!
# Moments

A `DateTime` is a date and a time of day with an offset from UTC, or without
one.  An instant is a count of microseconds from the start of the year one in
UTC; moments with an offset are compared and subtracted as instants.
-/

namespace OneShot.Calendar

/-- A date, a time of day and the offset from UTC in seconds; a moment without
an offset is local. -/
structure DateTime where
  date : Date
  hour : Nat
  minute : Nat
  second : Nat
  microsecond : Nat
  offset : Option Int
  deriving Repr, DecidableEq

def dayLength : Int := 86400000000

/-- Microseconds from the start of the year one on the moment's own clock. -/
def DateTime.clockReading (moment : DateTime) : Int :=
  (moment.date.dayNumber : Int) * dayLength +
    (((moment.hour * 60 + moment.minute) * 60 + moment.second) * 1000000 +
      moment.microsecond : Nat)

/-- The instant of a moment; one without an offset is taken as UTC. -/
def DateTime.instant (moment : DateTime) : Int :=
  moment.clockReading - moment.offset.getD 0 * 1000000

/-- Whether an instant lies in the years that have dates. -/
def InRange (instant : Int) : Prop :=
  0 ≤ instant ∧ instant < (daysBeforeYear (lastYear + 1) : Int) * dayLength

instance (instant : Int) : Decidable (InRange instant) := by
  unfold InRange; infer_instance

/-- The clock reading shown as a moment with a given offset. -/
def DateTime.ofClockReading (reading : Int) (offset : Option Int) : DateTime :=
  let days := (reading / dayLength).toNat
  let rest := (reading % dayLength).toNat
  { date := Date.ofDayNumber days
    hour := rest / 3600000000
    minute := rest / 60000000 % 60
    second := rest / 1000000 % 60
    microsecond := rest % 1000000
    offset := offset }

def DateTime.ofInstant (instant : Int) : DateTime :=
  DateTime.ofClockReading instant (some 0)

/-- A moment in UTC, if the calendar has it. -/
def DateTime.toUtc? (moment : DateTime) : Option DateTime :=
  if InRange moment.instant then some (DateTime.ofInstant moment.instant) else none

end OneShot.Calendar
