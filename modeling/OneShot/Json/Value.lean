import OneShot.Assoc

/-!
# JSON values

Integers and floats are kept apart, and the members of an object keep the
order in which their names first appeared.
-/

namespace OneShot

/-- A JSON value. -/
inductive Json where
  | null
  | bool (value : Bool)
  | int (value : Int)
  | float (value : Float)
  | str (value : String)
  | arr (items : List Json)
  | obj (members : List (String × Json))
  deriving Inhabited

namespace Json

/-- The member of an object with a given name. -/
def get? : Json → String → Option Json
  | .obj members, name => Assoc.get? members name
  | _, _ => none

def isNull : Json → Bool
  | .null => true
  | _ => false

end Json

end OneShot
