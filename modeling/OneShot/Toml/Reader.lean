import OneShot.Toml.Scalar
import OneShot.Toml.Table

/-!
# Reading TOML

A document is a run of lines: headers, names with values, comments and blank
lines.  Arrays may go over several lines; tables inside a value may not.  A
carriage return counts only in front of a newline, where it is dropped.

What is inside an array is read two calls further down, and what is inside a
table three.  How many calls there is room for is up to the caller of the reader,
and to what is read there; a value that is nested deeper is not read any further.
-/

namespace OneShot.Toml

open OneShot.Text
open OneShot.Calendar.Stamp (after?)

/-! ## Blanks and comments -/

/-- The rest after a comment, from the newline on. -/
def afterComment? : List Char → Option (List Char)
  | [] => some []
  | '\n' :: rest => some ('\n' :: rest)
  | c :: rest => if isControl c then none else afterComment? rest

def afterFiller? : (comment : Bool) → List Char → Option (List Char)
  | _, [] => some []
  | true, c :: rest =>
      if c == '\n' then afterFiller? false rest
      else if isControl c then none
      else afterFiller? true rest
  | false, c :: rest =>
      if isGap c || c == '\n' then afterFiller? false rest
      else if c == '#' then afterFiller? true rest
      else some (c :: rest)

/-- The rest after the end of a line, which may hold a comment. -/
def afterLine? (chars : List Char) : Option (List Char) := do
  let chars := skipGap chars
  let chars ← match chars with
    | '#' :: rest => afterComment? rest
    | _ => some chars
  match chars with
  | [] => some []
  | '\n' :: rest => some rest
  | _ :: _ => none

/-! ## Names -/

def isBare (c : Char) : Bool :=
  c.isAlphanum || c == '_' || c == '-'

def part? (chars : List Char) : Option (String × List Char) :=
  if chars.head?.any isBare then
    some (String.ofList (chars.takeWhile isBare), chars.dropWhile isBare)
  else lineText? chars

/-- A dotted name: its parts up to the last, and the last. -/
def path? : (fuel : Nat) → List Char → Option ((List String × String) × List Char)
  | 0, _ => none
  | fuel + 1, chars => do
      let (first, rest) ← part? chars
      match skipGap rest with
      | '.' :: rest =>
          let ((steps, last), rest) ← path? fuel (skipGap rest)
          some ((first :: steps, last), rest)
      | rest => some (([], first), rest)

/-- A dotted name at the head of some characters. -/
def name? (chars : List Char) : Option ((List String × String) × List Char) :=
  path? (chars.length + 1) chars

/-! ## Values -/

mutual

/-- A value inside the calls that are in use; the fuel bounds their nesting, too. -/
def value (room : List Char → Nat) :
    (fuel used : Nat) → List Char → Except Fault (Toml × List Char)
  | 0, _, _ => .error .malformed
  | fuel + 1, used, chars =>
      if room chars < used then .error .tooDeep
      else
        match chars with
        | '[' :: rest => do
            let rest ← wellFormed (afterFiller? false rest)
            let (items, rest) ← items room fuel (used + 2) rest
            return (.array items, rest)
        | '{' :: rest =>
            match skipGap rest with
            | '}' :: rest => .ok (.table [], rest)
            | rest =>
                (inlineMembers room fuel (used + 3) [] rest).map fun found =>
                  (.table (Draft.finishMembers found.1), found.2)
        | _ => scalar chars

/-- The items of an array up to its closing bracket. -/
def items (room : List Char → Nat) :
    (fuel used : Nat) → List Char → Except Fault (List Toml × List Char)
  | 0, _, _ => .error .malformed
  | fuel + 1, used, chars =>
      match chars with
      | ']' :: rest => .ok ([], rest)
      | _ => do
          let (item, rest) ← value room fuel used chars
          match ← wellFormed (afterFiller? false rest) with
          | ']' :: rest => return ([item], rest)
          | ',' :: rest =>
              let (items, rest) ← items room fuel used (← wellFormed (afterFiller? false rest))
              return (item :: items, rest)
          | _ => throw .malformed

/-- The members of a table inside a value up to its closing brace, added to
those that were read before. -/
def inlineMembers (room : List Char → Nat) :
    (fuel used : Nat) → Draft.Members → List Char → Except Fault (Draft.Members × List Char)
  | 0, _, _, _ => .error .malformed
  | fuel + 1, used, members, chars => do
      let ((steps, last), rest) ← wellFormed (name? chars)
      let (value, rest) ← value room fuel used (skipGap (← wellFormed (after? '=' rest)))
      let members ← wellFormed (Draft.give 0 value last steps members)
      match skipGap rest with
      | '}' :: rest => return (members, rest)
      | ',' :: rest => inlineMembers room fuel used members (skipGap rest)
      | _ => throw .malformed

end

/-! ## Documents -/

/-- A document of which some lines were read. -/
structure Progress where
  current : Nat := 0
  header : List String := []
  members : Draft.Members := []

/-- Read a header; the flag tells whether it is one of a list. -/
def header? (listed : Bool) (chars : List Char) (progress : Progress) :
    Option (Progress × List Char) := do
  let ((steps, last), rest) ← name? (skipGap chars)
  let current := progress.current + 1
  let change := if listed then Draft.openNext last else Draft.openTable current last
  let members ← Draft.reach change steps progress.members
  let rest ← after? ']' rest
  let rest ← if listed then after? ']' rest else some rest
  return ({ current, header := steps ++ [last], members }, rest)

/-- Read a name with its value; a value may take two calls for every bit of fuel. -/
def pair (room : List Char → Nat) (fuel : Nat) (chars : List Char) (progress : Progress) :
    Except Fault (Progress × List Char) := do
  let ((steps, last), rest) ← wellFormed (name? chars)
  let rest := skipGap (← wellFormed (after? '=' rest))
  let (value, rest) ← value room (2 * fuel) 0 rest
  let members ← wellFormed <|
    Draft.reach (Draft.give progress.current value last steps) progress.header progress.members
  return ({ progress with members }, rest)

/-- Read what a line holds before its end. -/
def line (room : List Char → Nat) (fuel : Nat) (chars : List Char) (progress : Progress) :
    Except Fault (Progress × List Char) :=
  match chars with
  | '[' :: '[' :: rest => wellFormed (header? true rest progress)
  | '[' :: rest => wellFormed (header? false rest progress)
  | c :: _ =>
      if isBare c || c == '"' || c == '\'' then pair room fuel chars progress
      else .ok (progress, chars)
  | [] => .ok (progress, [])

def lines (room : List Char → Nat) : (fuel : Nat) → List Char → Progress → Except Fault Progress
  | 0, _, _ => .error .malformed
  | _ + 1, [], progress => .ok progress
  | fuel + 1, chars, progress => do
      let (progress, rest) ← line room (fuel + 1) (skipGap chars) progress
      lines room fuel (← wellFormed (afterLine? rest)) progress

/-- Drop the carriage returns in front of newlines. -/
def plainNewlines : List Char → List Char
  | '\r' :: '\n' :: rest => '\n' :: plainNewlines rest
  | c :: rest => c :: plainNewlines rest
  | [] => []

def read (room : List Char → Nat) (text : String) : Except Fault Toml :=
  let chars := plainNewlines text.toList
  (lines room (chars.length + 1) chars {}).map fun progress =>
    .table (Draft.finishMembers progress.members)

end OneShot.Toml
