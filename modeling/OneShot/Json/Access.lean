import OneShot.Json.Value
import OneShot.Calendar.Duration

/-!
# Access to JSON values

Lenient look-ups: an absent member is null, and a value of another kind gives
the fallback.
-/

namespace OneShot.Json

/-- The member with a name, null if there is none. -/
def member (value : Json) (name : String) : Json :=
  (value.get? name).getD .null

/-- Whether an object has a member with a name. -/
def has (value : Json) (name : String) : Bool :=
  (value.get? name).isSome

def text? : Json → Option String
  | .str value => some value
  | _ => none

def text (value : Json) : String :=
  value.text?.getD ""

/-- A member that is a string, or the fallback. -/
def textOr (value : Json) (name fallback : String) : String :=
  (value.member name).text?.getD fallback

def items : Json → List Json
  | .arr items => items
  | _ => []

def members : Json → List (String × Json)
  | .obj members => members
  | _ => []

def integer? : Json → Option Int
  | .int value => some value
  | .float value => some ((Calendar.microsOfSeconds value).tdiv 1000000)
  | _ => none

def integer (value : Json) : Int :=
  value.integer?.getD 0

/-- A member that is an integer, or the fallback. -/
def integerOr (value : Json) (name : String) (fallback : Int) : Int :=
  (value.member name).integer?.getD fallback

/-- The numbers that JSON has no digits for, by the words that stand for
them. -/
def numberWords : List (String × Float) :=
  [("inf", Decimal.infinity), ("-inf", -Decimal.infinity), ("nan", 0.0 / 0.0)]

def number? : Json → Option Float
  | .int value =>
      let magnitude := Decimal.ofDecimal value.natAbs 0
      some (if value < 0 then -magnitude else magnitude)
  | .float value => some value
  | .str word => Assoc.get? numberWords word
  | _ => none

/-- A member that is a number, or the fallback. -/
def numberOr (value : Json) (name : String) (fallback : Float) : Float :=
  (value.member name).number?.getD fallback

/-- A member that is a truth value, or the fallback. -/
def flagOr (value : Json) (name : String) (fallback : Bool) : Bool :=
  match value.member name with
  | .bool flag => flag
  | _ => fallback

def present? : Json → Option Json
  | .null => none
  | value => some value

end OneShot.Json
