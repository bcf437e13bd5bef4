import OneShot.Calendar.Stamp
import OneShot.Json.Value
import OneShot.Text.Blank
import OneShot.Wire.Checked

/-!
# Readings of single values

Strings are taken as they are.  Truth values, integers and moments are read
leniently from the other kinds of values that can stand for them.
-/

namespace OneShot.Wire

open Calendar
open OneShot.Text

/-- A string, and nothing that merely stands for one. -/
def readText : Json → Checked String
  | .str value => .valid value
  | _ => .fault .notString

def yesWords : List String := ["1", "on", "t", "true", "y", "yes"]

def noWords : List String := ["0", "off", "f", "false", "n", "no"]

/-- A number that stands for a truth value. -/
def flagOfInt (value : Int) : Checked Bool :=
  if value = 0 then .valid false
  else if value = 1 then .valid true
  else .fault .unreadableTruthValue

/-- The integer that a float is equal to. -/
def integral? (x : Float) : Option Int :=
  let whole := Stamp.floor x
  if x.isNaN || Decimal.isInfinite x then none
  else if Float.ofInt whole == x then some whole
  else none

/-- A truth value, or a word or a number that stands for one. -/
def readFlag : Json → Checked Bool
  | .bool value => .valid value
  | .int value => flagOfInt value
  | .float value =>
      match integral? value with
      | some whole => flagOfInt whole
      | none => .fault .notTruthValue
  | .str word =>
      let lower := String.ofList (word.toList.map Char.toLower)
      if yesWords.contains lower then .valid true
      else if noWords.contains lower then .valid false
      else .fault .unreadableTruthValue
  | _ => .fault .notTruthValue

/-- An integer written in digits, with a sign, underscores between digits, and
zeros after a point. -/
def integerOfText? (text : String) : Option Int :=
  let (negative, rest) := Decimal.signed (trim text).toList
  let (digits, tail) := Decimal.digitRun false rest
  let ended :=
    match tail with
    | [] => true
    | '.' :: zeros => zeros.all (· == '0')
    | _ => false
  if digits.isEmpty || !ended then none
  else
    let value : Int := numberOfDigits digits
    some (if negative then -value else value)

/-- The greatest length of the text of an integer. -/
def longestInteger : Nat := 4300

/-- An integer, or a value that stands for one. -/
def readInteger : Json → Checked Int
  | .int value => .valid value
  | .bool value => .valid (if value then 1 else 0)
  | .float value =>
      if value.isNaN || Decimal.isInfinite value then .fault .notFinite
      else
        match integral? value with
        | some whole => .valid whole
        | none => .fault .fractionalInteger
  | .str text =>
      if longestInteger < (trim text).length then .fault .integerSize
      else
        match integerOfText? text with
        | some value => .valid value
        | none => .fault .unreadableInteger
  | _ => .fault .notInteger

/-- A moment, by its stamp or by a count of seconds. -/
def readMoment : Json → Checked DateTime
  | .str text =>
      match Stamp.read? text with
      | some moment => .valid moment
      | none => .fault .unreadableMoment
  | .int count =>
      match Stamp.ofCount? count 0 with
      | some moment => .valid moment
      | none => .fault .unreadableCount
  | .float count =>
      match Stamp.ofFloat? count with
      | some moment => .valid moment
      | none => .fault .unreadableCount
  | _ => .fault .notMoment

def readList {α : Type} (read : Json → Checked α) : Json → Checked (List α)
  | .arr items => Checked.itemsFrom read 0 items
  | _ => .fault .notList

/-- Read the members of a map of strings side by side. -/
def readEntries : List (String × Json) → Checked (List (String × String))
  | [] => .valid []
  | (name, value) :: rest =>
      (fun text entries => (name, text) :: entries) <$>
        (readText value).under (.member name) <*> readEntries rest

def readMap : Json → Checked (List (String × String))
  | .obj members => readEntries members
  | _ => .fault .notMap

end OneShot.Wire
