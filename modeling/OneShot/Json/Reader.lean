import OneShot.Json.Value
import OneShot.Decimal.Read

/-!
# Reading JSON text

The reader takes the JSON grammar and the three words `NaN`, `Infinity` and
`-Infinity`.  Of members with the same name the last counts.  Control
characters must be escaped inside strings; an unpaired surrogate has no
character and is read as the replacement character.

Every bracket and every brace that is open takes a call of the reader.  How many
calls it may make is up to its caller; a value that is nested deeper is not read
any further.
-/

namespace OneShot.Json

open OneShot.Text
open OneShot.Decimal

def isSpace (c : Char) : Bool :=
  c == ' ' || c == '\t' || c == '\n' || c == '\r'

def skipSpace (chars : List Char) : List Char :=
  chars.dropWhile isSpace

def hexUnit? (a b c d : Char) : Option Nat := do
  return (((← hexValue? a) * 16 + (← hexValue? b)) * 16 + (← hexValue? c)) * 16
    + (← hexValue? d)

/-- The character that a letter after the backslash stands for. -/
def escapeLetter? : Char → Option Char
  | '"' => some '"'
  | '\\' => some '\\'
  | '/' => some '/'
  | 'b' => some '\x08'
  | 'f' => some '\x0c'
  | 'n' => some '\n'
  | 'r' => some '\r'
  | 't' => some '\t'
  | _ => none

/-- A piece of a string: a character, or a code unit given by its number. -/
inductive Piece where
  | char (c : Char)
  | unit (code : Nat)

/-- The pieces of a string up to its closing quote, and what follows. -/
def stringPieces : List Char → Option (List Piece × List Char)
  | [] => none
  | '"' :: rest => some ([], rest)
  | '\\' :: 'u' :: a :: b :: c :: d :: rest =>
      match hexUnit? a b c d with
      | none => none
      | some code => (stringPieces rest).map fun found => (.unit code :: found.1, found.2)
  | '\\' :: letter :: rest =>
      match escapeLetter? letter with
      | none => none
      | some c => (stringPieces rest).map fun found => (.char c :: found.1, found.2)
  | c :: rest =>
      if c == '\\' || c.toNat < 0x20 then none
      else (stringPieces rest).map fun found => (.char c :: found.1, found.2)

def isLeading (code : Nat) : Bool :=
  0xD800 ≤ code && code < 0xDC00

def isTrailing (code : Nat) : Bool :=
  0xDC00 ≤ code && code < 0xE000

/-- The character that stands for an unpaired surrogate. -/
def replacement : Char := Char.ofNat 0xFFFD

/-- The characters of some pieces.  A leading surrogate waits for the piece
after it; the two units of a pair are one character. -/
def joinPieces : Option Nat → List Piece → List Char
  | none, [] => []
  | some _, [] => [replacement]
  | none, .char c :: rest => c :: joinPieces none rest
  | some _, .char c :: rest => replacement :: c :: joinPieces none rest
  | none, .unit code :: rest =>
      if isLeading code then joinPieces (some code) rest
      else if isTrailing code then replacement :: joinPieces none rest
      else Char.ofNat code :: joinPieces none rest
  | some leading, .unit code :: rest =>
      if isTrailing code then
        Char.ofNat (0x10000 + (leading - 0xD800) * 0x400 + (code - 0xDC00)) ::
          joinPieces none rest
      else if isLeading code then replacement :: joinPieces (some code) rest
      else replacement :: Char.ofNat code :: joinPieces none rest

/-- The text of a string up to its closing quote, and what follows. -/
def stringBody (chars : List Char) : Option (String × List Char) :=
  (stringPieces chars).map fun found =>
    (String.ofList (joinPieces none found.1), found.2)

/-- The digits at the head of a list and what follows. -/
def plainDigits : List Char → List Nat × List Char
  | [] => ([], [])
  | c :: rest =>
      match asciiDigit? c with
      | some digit =>
          let run := plainDigits rest
          (digit :: run.1, run.2)
      | none => ([], c :: rest)

/-- The digits before the point: a zero stands alone. -/
def wholePart : List Char → List Nat × List Char
  | '0' :: rest => ([0], rest)
  | chars => plainDigits chars

/-- The fraction of a number, if a point and a digit stand there. -/
def fractionPart (chars : List Char) : Option (List Nat) × List Char :=
  match chars with
  | '.' :: rest =>
      match plainDigits rest with
      | ([], _) => (none, chars)
      | (digits, tail) => (some digits, tail)
  | _ => (none, chars)

/-- The exponent of a number, if a mark and a digit stand there. -/
def exponentPart (chars : List Char) : Option Int × List Char :=
  match chars with
  | c :: rest =>
      if c == 'e' || c == 'E' then
        let (negative, tail) := signed rest
        match plainDigits tail with
        | ([], _) => (none, chars)
        | (digits, after) =>
            let value : Int := numberOfDigits digits
            (some (if negative then -value else value), after)
      else (none, chars)
  | [] => (none, chars)

/-- A number without its sign, and what follows. -/
def unsignedNumber (negative : Bool) (chars : List Char) :
    Option (Json × List Char) :=
  let (whole, rest) := wholePart chars
  if whole.isEmpty then none
  else
    let (fraction, afterFraction) := fractionPart rest
    let (exponent, tail) := exponentPart afterFraction
    if fraction.isNone && exponent.isNone then
      if longestInteger < whole.length then none
      else
        let value : Int := numberOfDigits whole
        some (.int (if negative then -value else value), tail)
    else
      let places := fraction.getD []
      let magnitude := ofDecimal (numberOfDigits (whole ++ places))
        (exponent.getD 0 - places.length)
      some (.float (if negative then -magnitude else magnitude), tail)

/-- What follows a word, if the word stands there. -/
def afterWord? (word : String) (chars : List Char) : Option (List Char) :=
  if word.toList.isPrefixOf chars then some (chars.drop word.length) else none

/-- A value that is a word or a number, and what follows. -/
def scalar (chars : List Char) : Option (Json × List Char) :=
  let words : List (String × Json) :=
    [("null", .null), ("true", .bool true), ("false", .bool false),
     ("NaN", .float (0.0 / 0.0)), ("Infinity", .float infinity),
     ("-Infinity", .float (-infinity))]
  match words.findSome? fun entry =>
      (afterWord? entry.1 chars).map (entry.2, ·) with
  | some result => some result
  | none =>
      match chars with
      | '-' :: rest => unsignedNumber true rest
      | _ => unsignedNumber false chars

/-! ## Nesting -/

/-- Why a text is not read. -/
inductive ReadFault where
  | malformed
  | tooDeep
  deriving Repr, DecidableEq

def wellFormed {α : Type} : Option α → Except ReadFault α
  | some value => .ok value
  | none => .error .malformed

mutual

/-- A value and what follows.  The fuel bounds the nesting of calls, and the
room that of brackets and braces. -/
def readValue : (fuel room : Nat) → List Char → Except ReadFault (Json × List Char)
  | 0, _, _ => .error .malformed
  | fuel + 1, room, chars =>
      match chars, room with
      | '"' :: rest, _ =>
          wellFormed ((stringBody rest).map fun body => (.str body.1, body.2))
      | '[' :: _, 0 | '{' :: _, 0 => .error .tooDeep
      | '[' :: rest, room + 1 =>
          match skipSpace rest with
          | ']' :: tail => .ok (.arr [], tail)
          | inside => (readItems fuel room inside).map fun items => (.arr items.1, items.2)
      | '{' :: rest, room + 1 =>
          match skipSpace rest with
          | '}' :: tail => .ok (.obj [], tail)
          | inside => (readMembers fuel room inside).map fun members =>
              (.obj (Assoc.ofList members.1), members.2)
      | _, _ => wellFormed (scalar chars)

/-- The items of an array up to its closing bracket, and what follows. -/
def readItems : (fuel room : Nat) → List Char → Except ReadFault (List Json × List Char)
  | 0, _, _ => .error .malformed
  | fuel + 1, room, chars => do
      let (item, rest) ← readValue fuel room chars
      match skipSpace rest with
      | ']' :: tail => return ([item], tail)
      | ',' :: tail =>
          let (items, rest) ← readItems fuel room (skipSpace tail)
          return (item :: items, rest)
      | _ => throw .malformed

/-- The members of an object up to its closing brace, and what follows. -/
def readMembers :
    (fuel room : Nat) → List Char → Except ReadFault (List (String × Json) × List Char)
  | 0, _, _ => .error .malformed
  | fuel + 1, room, chars =>
      match chars with
      | '"' :: rest => do
          let (name, rest) ← wellFormed (stringBody rest)
          match skipSpace rest with
          | ':' :: rest =>
              let (value, rest) ← readValue fuel room (skipSpace rest)
              match skipSpace rest with
              | '}' :: tail => return ([(name, value)], tail)
              | ',' :: tail =>
                  let (members, rest) ← readMembers fuel room (skipSpace tail)
                  return ((name, value) :: members, rest)
              | _ => throw .malformed
          | _ => throw .malformed
      | _ => .error .malformed

end

/-- The value that a list of characters holds, with white space around it. -/
def ofChars (room : Nat) (chars : List Char) : Except ReadFault Json := do
  let (value, rest) ← readValue (2 * chars.length + 2) room (skipSpace chars)
  if (skipSpace rest).isEmpty then return value else throw .malformed

def read (room : Nat) (text : String) : Except ReadFault Json :=
  ofChars room text.toList

/-- The room that callers have as a rule. -/
def usualRoom : Nat := 9990

def read? (text : String) : Option Json :=
  (read usualRoom text).toOption

end OneShot.Json
