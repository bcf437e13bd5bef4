import OneShot.Store.Basic

/-!
# Sessions

A program starts one database at a time and works on it in sessions.  A session
sees the committed tables and its own changes; the changes are there for others
only after a commit, and are given up by a rollback and at the end.  Uids that
were given out in a session are never given out again.
-/

namespace OneShot

open Calendar

/-- Why a database or a session cannot be used. -/
inductive SessionFault where
  | alreadyStarted
  | notStarted
  | alreadyOpen
  | notOpen
  deriving Repr, DecidableEq

def SessionFault.message : SessionFault → String
  | alreadyStarted =>
      "SQLAlchemy adapter already initialised. Pass force=True to reconfigure."
  | notStarted =>
      "SQLAlchemy adapter not initialised. Call cnat.adapters.sqlalchemy." ++
        "unit_of_work.startup() before requesting a unit of work."
  | alreadyOpen => "Unit of work session already initialised"
  | notOpen => "Unit of work session not initialised"

/-- The databases that a program has started, and which of them is in use. -/
structure Databases where
  committed : List Store := []
  current : Option Nat := none
  /-- How many uids were given out. -/
  issued : Nat := 0

/-- A piece of work on one database, with the tables as its session sees them. -/
structure WorkUnit where
  database : Nat
  session : Option Store := none

namespace Databases

def isStarted (databases : Databases) : Bool :=
  databases.current.isSome

/-- Start an empty database; another one is replaced only by force. -/
def start (databases : Databases) (force : Bool) : Except SessionFault Databases :=
  if databases.isStarted && !force then .error .alreadyStarted
  else
    .ok
      { databases with
        committed := databases.committed ++ [{}]
        current := some databases.committed.length }

def stop (databases : Databases) : Databases :=
  { databases with current := none }

/-- Prepare a piece of work on the database in use. -/
def prepare (databases : Databases) : Except SessionFault WorkUnit :=
  match databases.current with
  | some database => .ok { database }
  | none => .error .notStarted

/-- The committed tables of a database, as a session begins with them. -/
def tables (databases : Databases) (database : Nat) : Store :=
  { (databases.committed[database]?).getD {} with issued := databases.issued }

end Databases

namespace WorkUnit

def begin (unit : WorkUnit) (databases : Databases) : Except SessionFault WorkUnit :=
  match unit.session with
  | some _ => .error .alreadyOpen
  | none => .ok { unit with session := some (databases.tables unit.database) }

def view (unit : WorkUnit) : Except SessionFault Store :=
  match unit.session with
  | some store => .ok store
  | none => .error .notOpen

/-- End the session; what is not committed is given up. -/
def close (unit : WorkUnit) : Except SessionFault WorkUnit :=
  unit.view.map fun _ => { unit with session := none }

def commit (unit : WorkUnit) (databases : Databases) : Except SessionFault Databases :=
  unit.view.map fun store =>
    { databases with committed := databases.committed.set unit.database store }

def rollback (unit : WorkUnit) (databases : Databases) : Except SessionFault WorkUnit :=
  unit.view.map fun _ => { unit with session := some (databases.tables unit.database) }

def apply {α : Type} (unit : WorkUnit) (databases : Databases) (operation : Store → Effect α) :
    Except SessionFault (Except Fault α × WorkUnit × Databases) :=
  unit.view.map fun store =>
    let effect := operation store
    (effect.answer, { unit with session := some effect.store },
      { databases with issued := effect.store.issued })

end WorkUnit

end OneShot
