import OneShot.Text.Encoding
import OneShot.Toml.Value

/-!
# Strings, numbers and dates of TOML

Readers of what has no parts.  Each takes the characters from where the value
begins and gives the value and the characters after it; what may follow is the
business of the caller.  Wherever several kinds of values could begin, the
longer reading is tried first.  A date that the calendar does not have reads
as a number with something behind it that no value can have.  The first thing
that is wrong ends the reading, be it only a whole number of too many digits.
-/

namespace OneShot.Toml

open OneShot.Text
open OneShot.Calendar
open OneShot.Calendar.Stamp (twoDigits? after? date?)
open OneShot.Decimal

/-- Why a text is not read. -/
inductive Fault where
  /-- It does not follow the format. -/
  | malformed
  /-- A whole number has too many digits. -/
  | tooLong (digits : Nat)
  /-- Its values are nested deeper than there is room for. -/
  | tooDeep
  deriving Repr, DecidableEq

/-- What the format asks for, if it was found. -/
def wellFormed {α : Type} : Option α → Except Fault α
  | some found => .ok found
  | none => .error .malformed

def isGap (c : Char) : Bool :=
  c == ' ' || c == '\t'

def skipGap (chars : List Char) : List Char :=
  chars.dropWhile isGap

/-- The characters that may not stand in texts and comments. -/
def isControl (c : Char) : Bool :=
  (c.toNat < 0x20 && c != '\t') || c.toNat == 0x7F

/-! ## Strings -/

/-- The character of a code point given in hexadecimal. -/
def hexChar? (digits : List Char) : Option Char := do
  let values ← digits.mapM hexValue?
  charOf? (values.foldl (fun code value => 16 * code + value) 0)

/-- The character that a letter after the backslash stands for. -/
def escapeLetter? : Char → Option Char
  | 'b' => some '\x08'
  | 't' => some '\t'
  | 'n' => some '\n'
  | 'f' => some '\x0c'
  | 'r' => some '\r'
  | '"' => some '"'
  | '\\' => some '\\'
  | _ => none

def escaped? : List Char → Option (Char × List Char)
  | 'u' :: rest =>
      if rest.length < 4 then none else (hexChar? (rest.take 4)).map (·, rest.drop 4)
  | 'U' :: rest =>
      if rest.length < 8 then none else (hexChar? (rest.take 8)).map (·, rest.drop 8)
  | letter :: rest => (escapeLetter? letter).map (·, rest)
  | [] => none

/-- A backslash at the end of a line takes the white space after it away; this
is what is left then. -/
def afterLineEnd? (chars : List Char) : Option (List Char) :=
  match skipGap chars with
  | '\n' :: rest => some (rest.dropWhile fun c => isGap c || c == '\n')
  | [] => some []
  | _ :: _ => none

/-- Up to two quotes that belong to a text of several lines, though they stand
at its closing quotes. -/
def moreQuotes (quote : Char) : List Char → List Char × List Char
  | first :: second :: rest =>
      if first == quote then
        if second == quote then ([quote, quote], rest) else ([quote], second :: rest)
      else ([], first :: second :: rest)
  | [only] => if only == quote then ([quote], []) else ([], [only])
  | [] => ([], [])

/-- The body of a text with escapes, up to its closing quotes. -/
def basicBody (lines : Bool) : (fuel : Nat) → List Char → Option (List Char × List Char)
  | 0, _ => none
  | _ + 1, [] => none
  | fuel + 1, '"' :: rest =>
      if !lines then some ([], rest)
      else
        match rest with
        | '"' :: '"' :: tail => some (moreQuotes '"' tail)
        | _ => (basicBody lines fuel rest).map fun found => ('"' :: found.1, found.2)
  | fuel + 1, '\\' :: rest =>
      if lines && rest.head?.any (fun c => isGap c || c == '\n') then
        (afterLineEnd? rest).bind (basicBody lines fuel)
      else
        (escaped? rest).bind fun (c, tail) =>
          (basicBody lines fuel tail).map fun found => (c :: found.1, found.2)
  | fuel + 1, c :: rest =>
      if isControl c && !(lines && c == '\n') then none
      else (basicBody lines fuel rest).map fun found => (c :: found.1, found.2)

/-- The body of a text without escapes, up to its closing quotes. -/
def literalBody (lines : Bool) : List Char → Option (List Char × List Char)
  | [] => none
  | '\'' :: '\'' :: '\'' :: rest =>
      if lines then some (moreQuotes '\'' rest) else some ([], '\'' :: '\'' :: rest)
  | c :: rest =>
      if c == '\'' && !lines then some ([], rest)
      else if isControl c && !(lines && c == '\n') then none
      else (literalBody lines rest).map fun found => (c :: found.1, found.2)

/-- A newline at once behind the opening quotes does not count. -/
def skipNewline : List Char → List Char
  | '\n' :: rest => rest
  | chars => chars

/-- A text in one line, in quotes of either kind. -/
def lineText? : List Char → Option (String × List Char)
  | '"' :: rest =>
      (basicBody false (rest.length + 1) rest).map fun found => (String.ofList found.1, found.2)
  | '\'' :: rest => (literalBody false rest).map fun found => (String.ofList found.1, found.2)
  | _ => none

/-- A text in quotes of either kind, in one line or in several. -/
def anyText? : List Char → Option (String × List Char)
  | '"' :: '"' :: '"' :: rest =>
      (basicBody true (rest.length + 1) (skipNewline rest)).map fun found =>
        (String.ofList found.1, found.2)
  | '\'' :: '\'' :: '\'' :: rest =>
      (literalBody true (skipNewline rest)).map fun found => (String.ofList found.1, found.2)
  | chars => lineText? chars

/-! ## Dates and times -/

/-- The fraction of a second in microseconds, if one stands there. -/
def fraction (chars : List Char) : Nat × List Char :=
  match chars with
  | '.' :: rest =>
      let digits := rest.takeWhile isAsciiDigit
      if digits.isEmpty then (0, chars)
      else (Stamp.fraction (digits.filterMap asciiDigit?), rest.dropWhile isAsciiDigit)
  | _ => (0, chars)

def timeOfDay? (chars : List Char) : Option (Stamp.Time × List Char) := do
  let (hour, rest) ← twoDigits? chars
  let (minute, rest) ← twoDigits? (← after? ':' rest)
  let (second, rest) ← twoDigits? (← after? ':' rest)
  let (microsecond, rest) := fraction rest
  if hour < 24 ∧ minute < 60 ∧ second < 60 then
    some (⟨hour, minute, second, microsecond⟩, rest)
  else none

/-- An offset of hours and minutes in seconds. -/
def hoursAndMinutes? (chars : List Char) : Option (Nat × List Char) := do
  let (hours, rest) ← twoDigits? chars
  let (minutes, rest) ← twoDigits? (← after? ':' rest)
  if hours < 24 ∧ minutes < 60 then some ((60 * hours + minutes) * 60, rest) else none

/-- The offset from UTC, if one stands there. -/
def zone (chars : List Char) : Option Int × List Char :=
  match chars with
  | c :: rest =>
      if c == 'Z' || c == 'z' then (some 0, rest)
      else if c == '+' || c == '-' then
        match hoursAndMinutes? rest with
        | some (seconds, tail) => (some (if c == '-' then -seconds else seconds), tail)
        | none => (none, chars)
      else (none, chars)
  | [] => (none, chars)

/-- A date with the time of day behind it, if one stands there. -/
def dated? (chars : List Char) : Option (Toml × List Char) :=
  (date? chars).map fun (found, rest) =>
    let time : Option (Stamp.Time × List Char) :=
      match rest with
      | c :: rest => if c == 'T' || c == 't' || c == ' ' then timeOfDay? rest else none
      | [] => none
    match time with
    | none => (.date found, rest)
    | some (time, tail) =>
        let (offset, tail) := zone tail
        (.moment (Stamp.moment found time offset), tail)

/-! ## Numbers -/

def octalDigit? (c : Char) : Option Nat :=
  (asciiDigit? c).filter (· < 8)

def binaryDigit? (c : Char) : Option Nat :=
  (asciiDigit? c).filter (· < 2)

/-- A whole number in a base of its own. -/
def based? (base : Nat) (digit? : Char → Option Nat) (chars : List Char) :
    Option (Toml × List Char) :=
  match runOf digit? false chars with
  | ([], _) => none
  | (digits, rest) =>
      let value : Nat := digits.foldl (fun value digit => base * value + digit) 0
      some (.number (.whole value), rest)

/-- The digits before the point; a leading zero stands alone. -/
def wholeDigits (chars : List Char) : List Nat × List Char :=
  match chars with
  | '0' :: rest => ([0], rest)
  | _ => digitRun false chars

/-- The digits behind the point, if they stand there. -/
def places? (chars : List Char) : Option (List Nat × List Char) :=
  match (after? '.' chars).map (digitRun false) with
  | none | some ([], _) => none
  | found => found

def exponent? : List Char → Option (Int × List Char)
  | c :: rest =>
      if c == 'e' || c == 'E' then
        let (negative, tail) := signed rest
        match digitRun false tail with
        | ([], _) => none
        | (digits, tail) =>
            let value : Int := numberOfDigits digits
            some (if negative then -value else value, tail)
      else none
  | [] => none

/-- The whole number of some digits, unless there are too many of them. -/
def wholeNumber (negative : Bool) (digits : List Nat) : Except Fault Toml :=
  if longestInteger < digits.length then .error (.tooLong digits.length)
  else
    let value : Int := numberOfDigits digits
    .ok (.number (.whole (if negative then -value else value)))

/-- A number in decimal, which may be a whole number that is not read. -/
def decimal? (chars : List Char) : Option (Except Fault Toml × List Char) :=
  let (negative, rest) := signed chars
  let (whole, rest) := wholeDigits rest
  if whole.isEmpty then none
  else
    let places := places? rest
    let rest := (places.map (·.2)).getD rest
    let exponent := exponent? rest
    let rest := (exponent.map (·.2)).getD rest
    if places.isNone && exponent.isNone then some (wholeNumber negative whole, rest)
    else
      let digits := (places.map (·.1)).getD []
      let magnitude := ofDecimal (numberOfDigits (whole ++ digits))
        ((exponent.map (·.1)).getD 0 - digits.length)
      some (.ok (.number (.real (if negative then -magnitude else magnitude))), rest)

/-- A number, in decimal or in a base that is marked. -/
def number? (chars : List Char) : Option (Except Fault Toml × List Char) :=
  let marked :=
    match chars with
    | '0' :: 'x' :: rest => based? 16 hexValue? rest
    | '0' :: 'o' :: rest => based? 8 octalDigit? rest
    | '0' :: 'b' :: rest => based? 2 binaryDigit? rest
    | _ => none
  (marked.map fun found => (.ok found.1, found.2)).or (decimal? chars)

/-! ## Words -/

def words : List (String × Toml) :=
  [("inf", .number (.real infinity)), ("+inf", .number (.real infinity)),
   ("-inf", .number (.real (-infinity))), ("nan", .number (.real (0.0 / 0.0))),
   ("+nan", .number (.real (0.0 / 0.0))), ("-nan", .number (.real (0.0 / 0.0))),
   ("true", .bool true), ("false", .bool false)]

def word? (chars : List Char) : Option (Toml × List Char) :=
  words.findSome? fun (name, value) =>
    if name.toList.isPrefixOf chars then some (value, chars.drop name.length) else none

def scalar (chars : List Char) : Except Fault (Toml × List Char) :=
  match chars with
  | '"' :: _ | '\'' :: _ =>
      wellFormed ((anyText? chars).map fun found => (.text found.1, found.2))
  | _ =>
      let dated := (dated? chars).or
        ((timeOfDay? chars).map fun found => (.time found.1, found.2))
      match dated, number? chars with
      | some found, _ => .ok found
      | none, some (read, rest) => read.map fun value => (value, rest)
      | none, none => wellFormed (word? chars)

end OneShot.Toml
