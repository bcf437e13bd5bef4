import OneShot.Decimal.Shortest
import OneShot.Text.Digit

/-!
# The text of a float

A float is written with the fewest digits that read back, positionally when
the leading digit stands between the fourth place after the point and the
sixteenth before it, and otherwise with a signed exponent of at least two
digits.  A float with an integral value keeps `.0`.
-/

namespace OneShot.Decimal

open OneShot.Text

def Dec.layout (d : Dec) : String :=
  let digits := digitsOf d.digits
  let count : Int := digits.length
  let leading := count + d.exponent - 1
  let chars := digits.map digitChar
  if -4 ≤ leading ∧ leading < 16 then
    if d.exponent ≥ 0 then
      String.ofList (chars ++ List.replicate d.exponent.toNat '0') ++ ".0"
    else if leading ≥ 0 then
      let whole := (leading + 1).toNat
      String.ofList (chars.take whole ++ '.' :: chars.drop whole)
    else
      String.ofList
        ('0' :: '.' :: (List.replicate (-leading - 1).toNat '0' ++ chars))
  else
    let point := if chars.length > 1 then '.' :: chars.drop 1 else []
    let magnitude := leading.natAbs
    let power := if magnitude < 10 then paddedDigits 2 magnitude
      else (digitsOf magnitude).map digitChar
    String.ofList
      (chars.take 1 ++ point ++ 'e' :: (if leading < 0 then '-' else '+') :: power)

/-- Whether a float is the negative of its magnitude, zeros included. -/
def isNegative (x : Float) : Bool :=
  x.toBits >>> 63 == 1

def isInfinite (x : Float) : Bool :=
  x.toBits &&& 0x7FFFFFFFFFFFFFFF == 0x7FF0000000000000

/-- The three values of a float that are no number of the real line. -/
structure Names where
  nan : String
  infinity : String

/-- The text of a float, given the names of the values that are no number. -/
def textWith (names : Names) (x : Float) : String :=
  let sign := if isNegative x then "-" else ""
  if x.isNaN then names.nan
  else if isInfinite x then sign ++ names.infinity
  else sign ++ (Binary.ofBits x.toBits).shortest.layout

def text (x : Float) : String :=
  textWith ⟨"nan", "inf"⟩ x

end OneShot.Decimal
