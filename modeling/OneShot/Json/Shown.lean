import OneShot.Json.Value
import OneShot.Decimal.Text
import OneShot.Text.Quoted

/-!
# JSON values shown as text

Where a string is expected and another value stands, the value is shown: words
are capitalised, floats have their own text, and strings are quoted only
inside arrays and objects.
-/

namespace OneShot.Json

open OneShot.Text

mutual

/-- A value as it is shown inside another one. -/
def shownInside : Json → String
  | .null => "None"
  | .bool true => "True"
  | .bool false => "False"
  | .int value => intText value
  | .float value => Decimal.text value
  | .str value => quoted value
  | .arr items => "[" ++ ", ".intercalate (shownItems items) ++ "]"
  | .obj members => "\x7b" ++ ", ".intercalate (shownMembers members) ++ "\x7d"

def shownItems : List Json → List String
  | [] => []
  | item :: rest => shownInside item :: shownItems rest

def shownMembers : List (String × Json) → List String
  | [] => []
  | (name, value) :: rest =>
      (quoted name ++ ": " ++ shownInside value) :: shownMembers rest

end

def shown : Json → String
  | .str value => value
  | value => shownInside value

end OneShot.Json
