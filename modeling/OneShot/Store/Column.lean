import OneShot.Assoc
import OneShot.Calendar.DateTime
import OneShot.Json.Reader
import OneShot.Json.Shown
import OneShot.Json.Writer

/-!
# Column texts

Labels and argument lists are stored as JSON text.  Labels are written in the
order of their names, so that equal labels are equal texts.  Reading takes any
JSON: a value of another shape counts as empty, and items that are no strings
are shown as text.
-/

namespace OneShot.Column

/-- Put a label into a list that ascends by name. -/
def insertLabel (label : String × String) : List (String × String) → List (String × String)
  | [] => [label]
  | head :: rest =>
      if label.1 < head.1 then label :: head :: rest else head :: insertLabel label rest

def sortedLabels (labels : List (String × String)) : List (String × String) :=
  labels.foldl (fun sorted label => insertLabel label sorted) []

def writeLabels (labels : List (String × String)) : String :=
  Json.write .spaced (.obj ((sortedLabels labels).map fun label => (label.1, .str label.2)))

def writeStrings (values : List String) : String :=
  Json.write .spaced (.arr (values.map .str))

/-- The labels of a text; none if it is not JSON. -/
def readLabels? (text : String) : Option (List (String × String)) :=
  (Json.read? text).map fun
    | .obj members => members.map fun member => (member.1, member.2.shown)
    | _ => []

/-- The strings of a text; none if it is not JSON. -/
def readStrings? (text : String) : Option (List String) :=
  (Json.read? text).map fun
    | .arr items => items.map Json.shown
    | _ => []

open Calendar in
/-- A moment as it is stored, in UTC; one without an offset is in UTC
already. -/
def writeMoment? (moment : DateTime) : Option DateTime :=
  match moment.offset with
  | none => some { moment with offset := some 0 }
  | some offset => if offset = 0 then some moment else moment.toUtc?

open Calendar in
/-- A moment as it is read: one without an offset is in UTC. -/
def readMoment (moment : DateTime) : DateTime :=
  { moment with offset := some (moment.offset.getD 0) }

end OneShot.Column
