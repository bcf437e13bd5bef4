import OneShot.Decimal.Round
import OneShot.Decimal.Read
import OneShot.Decimal.Text

/-!
# Durations

Durations on the wall clock are whole microseconds; clocks that only run
forward count seconds as floats.
-/

namespace OneShot.Calendar

open OneShot.Decimal

def secondsOfMicros (micros : Int) : Float :=
  let magnitude := ofDecimal micros.natAbs (-6)
  if micros < 0 then -magnitude else magnitude

/-- Seconds as microseconds: whole seconds exactly, the fraction rounded with
ties to even.  Only finite floats are durations. -/
def microsOfSeconds (seconds : Float) : Int :=
  let magnitude := Binary.ofBits (seconds.toBits &&& 0x7FFFFFFFFFFFFFFF)
  let whole := magnitude.integralPart
  let fraction := seconds.abs - Float.ofNat whole
  let micros := (Binary.ofBits (fraction * 1000000.0).toBits).timesRounded 1
  let total : Int := whole * 1000000 + micros
  if isNegative seconds then -total else total

end OneShot.Calendar
