import OneShot.Text.Digit
import OneShot.Text.Blank

/-!
# Reading numbers

Integers and floats as people write them in settings: blanks around, a sign,
decimal digits of any script, and single underscores between digits.  Floats
may leave out the digits on one side of the point, carry an exponent, or be
one of the words `inf`, `infinity` and `nan`.
-/

namespace OneShot.Decimal

open OneShot.Text

def infinity : Float := 1.0 / 0.0

/-- The float closest to `mantissa * 10 ^ exponent`. -/
def ofDecimal (mantissa : Nat) (exponent : Int) : Float :=
  if mantissa == 0 then 0.0
  else
    let leading : Int := (digitsOf mantissa).length + exponent
    if leading > 310 then infinity
    else if leading < -330 then 0.0
    else Float.ofScientific mantissa (exponent < 0) exponent.natAbs

/-- A run of digits of some kind in which single underscores may stand between
digits, and what follows it.  The flag says whether a digit stands just
before. -/
def runOf (digit? : Char → Option Nat) (afterDigit : Bool) : List Char → List Nat × List Char
  | [] => ([], [])
  | c :: rest =>
      match digit? c with
      | some digit =>
          let run := runOf digit? true rest
          (digit :: run.1, run.2)
      | none =>
          if c == '_' && afterDigit && (rest.head?.bind digit?).isSome then
            runOf digit? false rest
          else ([], c :: rest)

def digitRun (afterDigit : Bool) (chars : List Char) : List Nat × List Char :=
  runOf asciiDigit? afterDigit chars

/-- A sign and what follows it; true is the minus sign. -/
def signed : List Char → Bool × List Char
  | '+' :: rest => (false, rest)
  | '-' :: rest => (true, rest)
  | chars => (false, chars)

/-- The blanks that may stand around a number, once digits and blanks beyond
ASCII have been brought to ASCII. -/
def isAsciiBlank (c : Char) : Bool :=
  c == ' ' || (9 ≤ c.toNat && c.toNat ≤ 13)

/-- A character of a number in ASCII, if it has a counterpart there. -/
def toAscii? (c : Char) : Option Char :=
  if c.toNat < 127 then some c
  else if isBlank c then some ' '
  else (decimalValue? c).map digitChar

/-- The characters of a number, in ASCII and without the blanks around. -/
def numberChars? (text : String) : Option (List Char) :=
  (text.toList.mapM toAscii?).map fun chars =>
    dropTail isAsciiBlank (chars.dropWhile isAsciiBlank)

/-- The number of digits that an integer has at most, zeros in front included. -/
def longestInteger : Nat := 4300

/-- The wording of the refusal of an integer with too many digits. -/
def tooLongMessage (digits : Nat) : String :=
  "Exceeds the limit (" ++ natText longestInteger ++
    " digits) for integer string conversion: value has " ++ natText digits ++
    " digits; use sys.set_int_max_str_digits() to increase the limit"

def integerOf? (chars : List Char) : Option Int :=
  let (negative, rest) := signed chars
  match digitRun false rest with
  | ([], _) => none
  | (digits, []) =>
      if longestInteger < digits.length then none
      else
        let value : Int := numberOfDigits digits
        some (if negative then -value else value)
  | (_, _ :: _) => none

def readInteger? (text : String) : Option Int :=
  (numberChars? text).bind integerOf?

/-- An exponent, or none where no exponent stands; fails on a bare mark. -/
def exponentOf? : List Char → Option Int
  | [] => some 0
  | c :: rest =>
      if c == 'e' || c == 'E' then
        let (negative, tail) := signed rest
        match digitRun false tail with
        | ([], _) => none
        | (digits, []) =>
            let value : Int := numberOfDigits digits
            some (if negative then -value else value)
        | (_, _ :: _) => none
      else none

/-- The magnitude of a float from ASCII characters without a sign. -/
def magnitudeOf? (chars : List Char) : Option Float :=
  let lower := chars.map Char.toLower
  if lower == "inf".toList || lower == "infinity".toList then some infinity
  else if lower == "nan".toList then some (0.0 / 0.0)
  else
    let (whole, rest) := digitRun false chars
    let (fraction, tail) :=
      match rest with
      | '.' :: more => digitRun false more
      | _ => ([], rest)
    if whole.isEmpty && fraction.isEmpty then none
    else
      (exponentOf? tail).map fun exponent =>
        ofDecimal (numberOfDigits (whole ++ fraction)) (exponent - fraction.length)

def readFloat? (text : String) : Option Float := do
  let chars ← numberChars? text
  let (negative, rest) := signed chars
  let magnitude ← magnitudeOf? rest
  return if negative then -magnitude else magnitude

end OneShot.Decimal
