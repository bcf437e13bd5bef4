import OneShot.Calendar.DateTime
import OneShot.Calendar.Duration
import OneShot.Text.Digit

/-!
# Ages

An age is shown in the one unit that suits its size: seconds below two minutes,
minutes below three hours, hours below two days, and days from there on.
Fractions of the unit are dropped.
-/

namespace OneShot

open Calendar

/-- The units of ages. -/
inductive AgeUnit where
  | seconds
  | minutes
  | hours
  | days
  deriving Repr, DecidableEq

namespace AgeUnit

def letter : AgeUnit → String
  | seconds => "s"
  | minutes => "m"
  | hours => "h"
  | days => "d"

def length : AgeUnit → Nat
  | seconds => 1
  | minutes => 60
  | hours => 3600
  | days => 86400

end AgeUnit

/-- A whole number of a unit. -/
structure Age where
  count : Nat
  unit : AgeUnit
  deriving Repr, DecidableEq

namespace Age

/-- The age of a number of seconds, in the unit that suits it. -/
def ofSeconds (seconds : Nat) : Age :=
  if seconds < 120 then ⟨seconds, .seconds⟩
  else
    let minutes := seconds / 60
    if minutes < 180 then ⟨minutes, .minutes⟩
    else
      let hours := minutes / 60
      if hours < 48 then ⟨hours, .hours⟩ else ⟨hours / 24, .days⟩

/-- The time that an age stands for, in seconds. -/
def seconds (age : Age) : Nat :=
  age.count * age.unit.length

def text (age : Age) : String :=
  Text.natText age.count ++ age.unit.letter

/-- The whole seconds between two moments, none if the second is earlier.
Moments with and without an offset have no time between them. -/
def elapsed? (created now : DateTime) : Option Nat :=
  if created.offset.isSome == now.offset.isSome then
    let between := secondsOfMicros (now.instant - created.instant)
    some (if Decimal.isNegative between then 0
      else (Decimal.Binary.ofBits between.toBits).integralPart)
  else none

/-- The text of the age of something that was created at a moment, if it is
known; none if the moments do not mix. -/
def shown? (created : Option DateTime) (now : DateTime) : Option String :=
  match created with
  | none => some "<unknown>"
  | some moment => (elapsed? moment now).map fun seconds => (ofSeconds seconds).text

end Age

end OneShot
