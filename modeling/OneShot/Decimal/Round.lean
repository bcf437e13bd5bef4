import OneShot.Decimal.Shortest

/-!
# Exact rounding

Quotients rounded to the nearest integer with ties to the even one, floats
rounded to integers, and floats with a fixed number of places.
-/

namespace OneShot.Decimal

/-- A quotient rounded to the nearest integer, a tie to the even one. -/
def roundDiv (num den : Nat) : Nat :=
  let quotient := num / den
  match compare (2 * (num % den)) den with
  | .lt => quotient
  | .gt => quotient + 1
  | .eq => if quotient % 2 == 0 then quotient else quotient + 1

/-- The magnitude of a finite float times a natural number, rounded. -/
def Binary.timesRounded (x : Binary) (factor : Nat) : Nat :=
  roundDiv (x.significand * factor * Nat.pow 2 x.scale.toNat) (Nat.pow 2 (-x.scale).toNat)

/-- The integral part of the magnitude of a finite float times a natural
number. -/
def Binary.times (x : Binary) (factor : Nat) : Nat :=
  x.significand * factor * Nat.pow 2 x.scale.toNat / Nat.pow 2 (-x.scale).toNat

/-- The integral part of the magnitude of a finite float. -/
def Binary.integralPart (x : Binary) : Nat :=
  x.times 1

end OneShot.Decimal
