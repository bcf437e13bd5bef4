import OneShot.Calendar.DateTime
import OneShot.Text.Digit
import OneShot.Text.Quoted

/-!
# Schedules

A schedule is a UTC moment in the fixed layout `YYYY-MM-DDThh:mm:ssZ`.
Nothing else is accepted: no offsets, no fractions, no other widths.
`Schedule.parse` reads one and `Schedule.format` writes one; the year is
written without padding.
-/

namespace OneShot

open Calendar
open OneShot.Text

/-- Why a text is not a schedule. -/
inductive ScheduleFault where
  /-- The text does not have the layout. -/
  | layout (text : String)
  /-- A field is outside what its place admits. -/
  | field (text : String)
  /-- There is no year zero. -/
  | yearZero (text : String)
  /-- The month has no such day. -/
  | dayOfMonth (text : String)
  /-- Leap seconds have a place in the layout but are no moments. -/
  | leapSecond (text : String)
  deriving Repr, DecidableEq

def ScheduleFault.message : ScheduleFault → String
  | .layout text =>
      "Invalid schedule " ++ quoted text ++ ": expected layout YYYY-MM-DDThh:mm:ssZ"
  | .field text =>
      "Invalid schedule " ++ quoted text ++ ": time data " ++ quoted text ++
        " does not match format '%Y-%m-%dT%H:%M:%SZ'"
  | .yearZero text => "Invalid schedule " ++ quoted text ++ ": year 0 is out of range"
  | .dayOfMonth text =>
      "Invalid schedule " ++ quoted text ++ ": day is out of range for month"
  | .leapSecond text =>
      "Invalid schedule " ++ quoted text ++ ": second must be in 0..59"

namespace Schedule

/-- The six numbers of a text in the layout. -/
structure Fields where
  year : Nat
  month : Nat
  day : Nat
  hour : Nat
  minute : Nat
  second : Nat
  deriving Repr, DecidableEq

/-- The number written by ASCII digits, if all characters are such. -/
def number? (chars : List Char) : Option Nat :=
  (chars.mapM asciiDigit?).map numberOfDigits

/-- The fields of a text in the layout. -/
def fields? (chars : List Char) : Option Fields :=
  match chars with
  | [y1, y2, y3, y4, '-', m1, m2, '-', d1, d2, 'T', h1, h2, ':', n1, n2, ':', s1, s2, 'Z'] => do
      return {
        year := ← number? [y1, y2, y3, y4]
        month := ← number? [m1, m2]
        day := ← number? [d1, d2]
        hour := ← number? [h1, h2]
        minute := ← number? [n1, n2]
        second := ← number? [s1, s2] }
  | _ => none

/-- Whether each field is one that its place admits; the day is not yet held
against the month, and leap seconds are let through. -/
def Fields.Admitted (fields : Fields) : Prop :=
  1 ≤ fields.month ∧ fields.month ≤ 12 ∧ 1 ≤ fields.day ∧ fields.day ≤ 31 ∧
    fields.hour ≤ 23 ∧ fields.minute ≤ 59 ∧ fields.second ≤ 61

instance (fields : Fields) : Decidable fields.Admitted := by
  unfold Fields.Admitted; infer_instance

def Fields.moment (fields : Fields) : DateTime :=
  { date := ⟨fields.year, fields.month, fields.day⟩
    hour := fields.hour
    minute := fields.minute
    second := fields.second
    microsecond := 0
    offset := some 0 }

/-- Read a schedule.  The date is checked before the time of day. -/
def parse (text : String) : Except ScheduleFault DateTime :=
  match fields? text.toList with
  | none => .error (.layout text)
  | some fields =>
      if ¬ fields.Admitted then .error (.field text)
      else if fields.year = 0 then .error (.yearZero text)
      else if daysInMonth fields.year fields.month < fields.day then
        .error (.dayOfMonth text)
      else if 59 < fields.second then .error (.leapSecond text)
      else .ok fields.moment

/-- A UTC moment in the layout, the year without padding. -/
def write (moment : DateTime) : String :=
  String.ofList
    ((digitsOf moment.date.year).map digitChar ++ '-' :: paddedDigits 2 moment.date.month ++
      '-' :: paddedDigits 2 moment.date.day ++ 'T' :: paddedDigits 2 moment.hour ++
      ':' :: paddedDigits 2 moment.minute ++ ':' :: paddedDigits 2 moment.second ++ ['Z'])

/-- Write a moment as a schedule, in UTC; none if the calendar ends before. -/
def format? (moment : DateTime) : Option String :=
  moment.toUtc?.map write

/-- Why a delay is not known. -/
inductive DelayFault where
  | malformed (fault : ScheduleFault)
  /-- The present moment has no date in UTC. -/
  | outOfCalendar
  deriving Repr, DecidableEq

/-- Microseconds from the present until a schedule, negative once it is
overdue. -/
def delay (schedule : String) (now : DateTime) : Except DelayFault Int :=
  match parse schedule with
  | .error fault => .error (.malformed fault)
  | .ok target =>
      match now.toUtc? with
      | none => .error .outOfCalendar
      | some present => .ok (target.instant - present.instant)

end Schedule

end OneShot
