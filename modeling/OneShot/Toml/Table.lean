import OneShot.Toml.Value

/-!
# Tables in the making

A document builds its tables line by line.  Headers open tables, dotted names
make tables on the way, and neither may come back to a table that is closed: a
table is closed by the header that opens it, and one made on the way of a
dotted name is closed by the next header.  What a value gives is never changed.

Sections are numbered by their headers, so that a table only needs to know
from which section on it is closed.
-/

namespace OneShot.Toml

/-- A place in a document. -/
inductive Draft where
  /-- A value, which is there to stay. -/
  | given (value : Toml)
  /-- A table, and the section from which on it is closed, if there is one. -/
  | table (closedFrom : Option Nat) (members : List (String × Draft))
  /-- A list of tables, of which the last is still in the making. -/
  | list (done : List Toml) (last : List (String × Draft))

namespace Draft

/-- The members of a table in the making. -/
abbrev Members := List (String × Draft)

mutual

def finish : Draft → Toml
  | given value => value
  | table _ members => .table (finishMembers members)
  | list done last => .array (done ++ [.table (finishMembers last)])

/-- What has become of the members of a table. -/
def finishMembers : List (String × Draft) → List (String × Toml)
  | [] => []
  | (name, place) :: rest => (name, place.finish) :: finishMembers rest

end

/-- Whether a table is closed in a section. -/
def isClosed (current : Nat) (closedFrom : Option Nat) : Bool :=
  closedFrom.any fun first => first ≤ current

/-- Change the members of the table at a path, whose tables are made if they
are not there.  On the way the last table of a list stands for the list. -/
def reach (change : Members → Option Members) : List String → Members → Option Members
  | [], members => change members
  | name :: rest, members =>
      match Assoc.get? members name with
      | none => (reach change rest []).map fun inner => Assoc.put members name (.table none inner)
      | some (.table closedFrom inner) =>
          (reach change rest inner).map fun inner =>
            Assoc.put members name (.table closedFrom inner)
      | some (.list done last) =>
          (reach change rest last).map fun last => Assoc.put members name (.list done last)
      | some (.given _) => none

/-- Open a table by a header; it must not have been closed before. -/
def openTable (current : Nat) (name : String) (members : Members) : Option Members :=
  match Assoc.get? members name with
  | none => some (Assoc.put members name (.table (some current) []))
  | some (.table closedFrom inner) =>
      if isClosed current closedFrom then none
      else some (Assoc.put members name (.table (some current) inner))
  | some (.list ..) | some (.given _) => none

/-- Open the next table of a list by a header. -/
def openNext (name : String) (members : Members) : Option Members :=
  match Assoc.get? members name with
  | none => some (Assoc.put members name (.list [] []))
  | some (.list done last) =>
      some (Assoc.put members name (.list (done ++ [.table (finishMembers last)]) []))
  | some (.table ..) | some (.given _) => none

/-- Give the value of a dotted name.  The tables on its way must not be closed
in this section, and are closed from the next one on. -/
def give (current : Nat) (value : Toml) (name : String) :
    List String → Members → Option Members
  | [], members =>
      if (Assoc.get? members name).isSome then none
      else some (Assoc.put members name (.given value))
  | step :: rest, members =>
      let through (inner : Members) : Option Members :=
        (give current value name rest inner).map fun inner =>
          Assoc.put members step (.table (some (current + 1)) inner)
      match Assoc.get? members step with
      | none => through []
      | some (.table closedFrom inner) =>
          if isClosed current closedFrom then none else through inner
      | some (.list ..) | some (.given _) => none

end Draft

end OneShot.Toml
