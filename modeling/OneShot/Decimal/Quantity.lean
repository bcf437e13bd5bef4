import OneShot.Decimal.Read
import OneShot.Decimal.Text

/-!
# Quantities

A quantity is a number as people state it: a whole number of any size, or a
number with a fraction.  Both kinds are compared with each other, and each
keeps its own text.
-/

namespace OneShot.Decimal

/-- A whole number, or a number with a fraction. -/
inductive Quantity where
  | whole (value : Int)
  | real (value : Float)

def floatOfInt (value : Int) : Float :=
  let magnitude := ofDecimal value.natAbs 0
  if value < 0 then -magnitude else magnitude

namespace Quantity

def toFloat : Quantity → Float
  | whole value => floatOfInt value
  | real value => value

def text : Quantity → String
  | whole value => Text.intText value
  | real value => Decimal.text value

def below : Quantity → Quantity → Bool
  | whole first, whole second => first < second
  | first, second => first.toFloat < second.toFloat

end Quantity

end OneShot.Decimal
