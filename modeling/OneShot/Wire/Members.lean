import OneShot.Json.Value
import OneShot.Wire.Checked

/-!
# Members of models

A model is an object with modelled members and others.  A modelled member has
a name on the wire and may be given under a second name; the first one wins.
Members that are not modelled are kept as they are.
-/

namespace OneShot.Wire

/-- The members of an object. -/
abbrev Members := List (String × Json)

/-- The names of a modelled member. -/
structure MemberName where
  wire : String
  plain : String := wire

instance : Coe String MemberName := ⟨fun name => { wire := name }⟩

namespace MemberName

/-- The name under which a member is given. -/
def given? (name : MemberName) (members : Members) : Option String :=
  [name.wire, name.plain].find? fun candidate => (Assoc.get? members candidate).isSome

def find? (name : MemberName) (members : Members) : Option Json :=
  (name.given? members).bind (Assoc.get? members)

end MemberName

variable {α : Type}

def required (name : MemberName) (read : Json → Checked α) (members : Members) : Checked α :=
  match name.find? members with
  | some value => (read value).under (.member name.wire)
  | none => (Checked.fault .missing).under (.member name.wire)

/-- A member that is taken from a default if it is not there. -/
def defaulted (name : MemberName) (fallback : α) (read : Json → Checked α)
    (members : Members) : Checked α :=
  match name.find? members with
  | some value => (read value).under (.member name.wire)
  | none => .valid fallback

def nullable (read : Json → Checked α) : Json → Checked (Option α)
  | .null => .valid none
  | value => some <$> read value

/-- A member that may be absent or null. -/
def optional (name : MemberName) (read : Json → Checked α) (members : Members) :
    Checked (Option α) :=
  defaulted name none (nullable read) members

/-- The members that are given under no name of a model. -/
def leftOver (names : List MemberName) (members : Members) : Members :=
  let given := names.filterMap fun name => name.given? members
  members.filter fun member => !given.contains member.1

def readModel (read : Members → Checked α) : Json → Checked α
  | .obj members => read members
  | _ => .fault .notModel

/-- The members of a model as they are written: those that are there, and the
others, nulls left out. -/
def written (modelled : List (String × Option Json)) (others : Members) : Json :=
  .obj ((modelled.filterMap fun member => member.2.map fun value => (member.1, value)) ++
    others.filter fun member => !member.2.isNull)

end OneShot.Wire
