import OneShot.Calendar.DateTime
import OneShot.Calendar.Duration
import OneShot.Text.Digit

/-!
# Time stamps

Moments as they stand in payloads.  A stamp is a date, a separator, a time with
optional seconds and fraction, and an optional zone; a date alone is its
midnight; a number counts seconds from the start of 1970, or milliseconds when
it is too great for that.  Written stamps have `T`, all seconds, a fraction of
six digits if there is one, and `Z` for UTC.
-/

namespace OneShot.Calendar.Stamp

open OneShot.Text

/-! ## Reading -/

/-- A number of two digits, and what follows it. -/
def twoDigits? : List Char → Option (Nat × List Char)
  | c :: d :: rest => do
      let tens ← asciiDigit? c
      let ones ← asciiDigit? d
      return (10 * tens + ones, rest)
  | _ => none

def after? (expected : Char) : List Char → Option (List Char)
  | c :: rest => if c == expected then some rest else none
  | [] => none

def date? (chars : List Char) : Option (Date × List Char) := do
  let (century, rest) ← twoDigits? chars
  let (years, rest) ← twoDigits? rest
  let (month, rest) ← twoDigits? (← after? '-' rest)
  let (day, rest) ← twoDigits? (← after? '-' rest)
  let date : Date := ⟨100 * century + years, month, day⟩
  if date.Valid then some (date, rest) else none

/-- A time of day: hours, minutes, seconds and microseconds. -/
structure Time where
  hour : Nat
  minute : Nat
  second : Nat := 0
  microsecond : Nat := 0
  deriving Repr, DecidableEq

/-- The microseconds of the digits of a fraction; digits beyond the sixth are
dropped. -/
def fraction (digits : List Nat) : Nat :=
  numberOfDigits ((digits ++ List.replicate 6 0).take 6)

/-- A fraction of a second, if one stands here. -/
def fraction? (chars : List Char) : Option (Nat × List Char) :=
  match chars with
  | c :: rest =>
      if c == '.' || c == ',' then
        let digits := rest.takeWhile isAsciiDigit
        if digits.isEmpty then none
        else some (fraction (digits.filterMap asciiDigit?), rest.dropWhile isAsciiDigit)
      else some (0, chars)
  | [] => some (0, [])

/-- The seconds and their fraction, if seconds stand here. -/
def seconds? (chars : List Char) : Option ((Nat × Nat) × List Char) :=
  match after? ':' chars with
  | none => some ((0, 0), chars)
  | some rest => do
      let (second, rest) ← twoDigits? rest
      let (microsecond, rest) ← fraction? rest
      return ((second, microsecond), rest)

/-- A time of day, and what follows it. -/
def time? (chars : List Char) : Option (Time × List Char) := do
  let (hour, rest) ← twoDigits? chars
  let (minute, rest) ← twoDigits? (← after? ':' rest)
  let ((second, microsecond), rest) ← seconds? rest
  if hour < 24 ∧ minute < 60 ∧ second < 60 then
    some (⟨hour, minute, second, microsecond⟩, rest)
  else none

/-- The magnitude of an offset in seconds: hours and minutes, a colon between
them or not. -/
def offsetMagnitude? (chars : List Char) : Option Nat := do
  let (hours, rest) ← twoDigits? chars
  let (minutes, rest) ← twoDigits? ((after? ':' rest).getD rest)
  if rest.isEmpty ∧ hours < 24 ∧ minutes < 60 then some ((60 * hours + minutes) * 60)
  else none

/-- A zone: nothing, UTC, or an offset.  The outer option is the failure. -/
def zone? : List Char → Option (Option Int)
  | [] => some none
  | [c] => if c == 'Z' || c == 'z' then some (some 0) else none
  | sign :: rest =>
      if sign == '+' then (offsetMagnitude? rest).map fun offset => some (offset : Int)
      else if sign == '-' || sign == '\u2212' then
        (offsetMagnitude? rest).map fun offset => some (-(offset : Int))
      else none

/-- A moment of a date, a time and a zone. -/
def moment (date : Date) (time : Time) (offset : Option Int) : DateTime :=
  ⟨date, time.hour, time.minute, time.second, time.microsecond, offset⟩

/-- The characters that may stand between the date and the time. -/
def isSeparator (c : Char) : Bool :=
  c == 'T' || c == 't' || c == ' ' || c == '_'

def calendar? (chars : List Char) : Option DateTime := do
  let (date, rest) ← date? chars
  match rest with
  | [] => some (moment date ⟨0, 0, 0, 0⟩ none)
  | separator :: rest =>
      if isSeparator separator then do
        let (time, rest) ← time? rest
        let offset ← zone? rest
        return moment date time offset
      else none

/-! ## Counts of seconds -/

def epoch : Int := (Date.dayNumber ⟨1970, 1, 1⟩ : Int) * dayLength

/-- The greatest count that is taken as seconds. -/
def greatestSeconds : Nat := 20000000000

/-- A count of seconds, or of milliseconds, in microseconds. -/
def countMicros (count : Int) : Int :=
  if count.natAbs ≤ greatestSeconds then count * 1000000 else count * 1000

/-- The first instant that a count can name: the start of 1600. -/
def firstCounted : Int := (Date.dayNumber ⟨1600, 1, 1⟩ : Int) * dayLength

/-- The UTC moment of a count with some microseconds on top. -/
def ofCount? (count : Int) (micros : Nat) : Option DateTime :=
  let start := epoch + countMicros count
  let instant := start + micros
  if firstCounted ≤ start ∧ InRange instant then some (DateTime.ofInstant instant) else none

def floor (x : Float) : Int :=
  let magnitude := Decimal.Binary.ofBits (x.toBits &&& 0x7FFFFFFFFFFFFFFF)
  let whole : Int := magnitude.integralPart
  if Decimal.isNegative x then
    if Float.ofNat magnitude.integralPart == x.abs then -whole else -whole - 1
  else whole

/-- The nearest integer to a finite float that is not negative, a tie upwards. -/
def nearest (x : Float) : Nat :=
  ((Decimal.Binary.ofBits x.toBits).times 2 + 1) / 2

/-- The UTC moment of a count with a fraction, which is taken without its
sign. -/
def ofFloat? (x : Float) : Option DateTime :=
  if x.isNaN || Decimal.isInfinite x then none
  else
    let whole := (Decimal.Binary.ofBits x.abs.toBits).integralPart
    let fraction := x.abs - Float.ofNat whole
    ofCount? (floor x) (nearest (fraction * 1000000.0))

/-- The UTC moment of a written count with a fraction: milliseconds become
seconds, and the fraction is counted from the second below. -/
def ofWrittenFloat? (x : Float) : Option DateTime :=
  if x.isNaN || Decimal.isInfinite x then none
  else
    let seconds := if x.abs > Float.ofNat greatestSeconds then x / 1000.0 else x
    let below := floor seconds
    ofCount? below (nearest ((seconds - Float.ofInt below) * 1000000.0))

def number? (chars : List Char) : Option DateTime :=
  let (negative, rest) := Decimal.signed chars
  let whole := rest.takeWhile isAsciiDigit
  let signed (n : Nat) : Int := if negative then -(n : Int) else n
  if whole.isEmpty then none
  else
    match rest.dropWhile isAsciiDigit with
    | [] => ofCount? (signed (numberOfDigits (whole.filterMap asciiDigit?))) 0
    | '.' :: digits =>
        if digits.isEmpty || !digits.all isAsciiDigit then none
        else (Decimal.readFloat? (String.ofList chars)).bind ofWrittenFloat?
    | _ => none

def read? (text : String) : Option DateTime :=
  (calendar? text.toList).or (number? text.toList)

/-! ## Writing -/

def dateChars (date : Date) : List Char :=
  paddedDigits 4 date.year ++ '-' :: paddedDigits 2 date.month ++ '-' :: paddedDigits 2 date.day

/-- The characters of a time of day; a fraction is written unless it is zero. -/
def timeChars (time : Time) : List Char :=
  paddedDigits 2 time.hour ++ ':' :: paddedDigits 2 time.minute ++
    ':' :: paddedDigits 2 time.second ++
    (if time.microsecond = 0 then [] else '.' :: paddedDigits 6 time.microsecond)

def offsetChars (offset : Int) : List Char :=
  let minutes := offset.natAbs / 60
  (if offset < 0 then '-' else '+') ::
    (paddedDigits 2 (minutes / 60) ++ ':' :: paddedDigits 2 (minutes % 60))

def zoneChars : Option Int → List Char
  | none => []
  | some offset => if offset = 0 then ['Z'] else offsetChars offset

def timeOf (moment : DateTime) : Time :=
  ⟨moment.hour, moment.minute, moment.second, moment.microsecond⟩

def text (moment : DateTime) : String :=
  String.ofList
    (dateChars moment.date ++ 'T' :: timeChars (timeOf moment) ++ zoneChars moment.offset)

end OneShot.Calendar.Stamp
