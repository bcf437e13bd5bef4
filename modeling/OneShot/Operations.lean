import OneShot.Client

/-!
# Operations of users

What a user asks for, in terms of the calls of a client.  Schedules are checked
before any call is made.
-/

namespace OneShot.Operations

variable {σ τ : Type}

/-- The namespace that a user means: the one named, else the home namespace. -/
def namespaceOr (home : String) (named : Option String) : String :=
  match named with
  | some ns => if ns.isEmpty then home else ns
  | none => home

/-- The namespace of a listing; none for all of them. -/
def scope (home : String) (named : Option String) (everywhere : Bool) : Option String :=
  if everywhere then none else some (namespaceOr home named)

def checkSchedule (schedule : String) : Except Fault Unit :=
  match Schedule.parse schedule with
  | .ok _ => .ok ()
  | .error fault => .error (.schedule (.malformed fault))

def create (client : Client σ τ) (key : ObjectKey) (spec : AtSpec) (state : σ) :
    Except Fault At × σ :=
  match checkSchedule spec.schedule with
  | .error fault => (.error fault, state)
  | .ok () => client (.createAt ⟨{ name := key.name, ns := key.ns }, spec, ""⟩) .unstated state

/-- What an edit changes. -/
structure Edit where
  schedule : Option String := none
  command : Option String := none
  deriving Repr, DecidableEq

/-- Refuse an edit that changes nothing or names a bad schedule. -/
def Edit.check (edit : Edit) : Except Fault Unit :=
  match edit.schedule, edit.command with
  | none, none => .error (.other .nothingToChange)
  | some schedule, _ => checkSchedule schedule
  | none, some _ => .ok ()

/-- What is to be run after an edit. -/
def Edit.apply (edit : Edit) (spec : AtSpec) : AtSpec :=
  ⟨edit.schedule.getD spec.schedule, edit.command.getD spec.command⟩

/-- Edit a scheduled command: read it, and write what it has become. -/
def edit (client : Client σ τ) (key : ObjectKey) (change : Edit) (state : σ) :
    Except Fault At × σ :=
  match change.check with
  | .error fault => (.error fault, state)
  | .ok () =>
      match client (.getAt key) .unstated state with
      | (.error fault, state) => (.error fault, state)
      | (.ok (current : At), state) =>
          client (.updateAtSpec key (change.apply current.spec)) .unstated state

def delete (client : Client σ τ) (key : ObjectKey) (state : σ) : Except Fault ObjectKey × σ :=
  let (answer, state) := client (.deleteAt key) .unstated state
  (answer.map fun _ => key, state)

def listAts (client : Client σ τ) (scope : Option String) (state : σ) :
    Except Fault (List At) × σ :=
  client (.listAts scope) .unstated state

def listTasks (client : Client σ τ) (scope : Option String) (state : σ) :
    Except Fault (List Task) × σ :=
  client (.listTasks scope) .unstated state

end OneShot.Operations
