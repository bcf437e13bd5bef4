import OneShot.Assoc
import OneShot.Calendar.Stamp
import OneShot.Decimal.Quantity
import OneShot.Json.Shown

/-!
# TOML values

The values of the configuration format.  Whole numbers and numbers with a
fraction are kept apart, and dates and times are values of their own.
-/

namespace OneShot

open Calendar

/-- A TOML value. -/
inductive Toml where
  | text (value : String)
  | number (value : Decimal.Quantity)
  | bool (value : Bool)
  | date (value : Date)
  | time (value : Stamp.Time)
  | moment (value : DateTime)
  | array (items : List Toml)
  | table (members : List (String × Toml))

namespace Toml

/-- The member of a table with a given name. -/
def get? : Toml → String → Option Toml
  | table members, name => Assoc.get? members name
  | _, _ => none

def members? : Toml → Option (List (String × Toml))
  | table members => some members
  | _ => none

/-! ## Values shown as text -/

def dateText (date : Date) : String :=
  String.ofList (Stamp.dateChars date)

def timeText (time : Stamp.Time) : String :=
  String.ofList (Stamp.timeChars time)

def momentText (moment : DateTime) : String :=
  String.ofList
    (Stamp.dateChars moment.date ++ ' ' :: Stamp.timeChars (Stamp.timeOf moment) ++
      (moment.offset.map Stamp.offsetChars).getD [])

mutual

/-- A value as JSON, in which dates and times are texts. -/
def toJson : Toml → Json
  | text value => .str value
  | number (.whole value) => .int value
  | number (.real value) => .float value
  | bool value => .bool value
  | date value => .str (dateText value)
  | time value => .str (timeText value)
  | moment value => .str (momentText value)
  | array items => .arr (itemsToJson items)
  | table members => .obj (membersToJson members)

def itemsToJson : List Toml → List Json
  | [] => []
  | item :: rest => item.toJson :: itemsToJson rest

def membersToJson : List (String × Toml) → List (String × Json)
  | [] => []
  | (name, value) :: rest => (name, value.toJson) :: membersToJson rest

end

def shown (value : Toml) : String :=
  value.toJson.shown

end Toml

end OneShot
