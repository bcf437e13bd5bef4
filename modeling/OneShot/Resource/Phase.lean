/-!
# Phases

The phase of a scheduled command only moves forward: unset, waiting, running,
done.  It is stored as text so that phases of other writers survive; such a
phase has no rank.
-/

namespace OneShot

/-- The stages of a scheduled command. -/
inductive AtPhase where
  | unset
  | pending
  | running
  | done
  deriving Repr, DecidableEq

namespace AtPhase

def text : AtPhase → String
  | unset => ""
  | pending => "PENDING"
  | running => "RUNNING"
  | done => "DONE"

def ofText? (stored : String) : Option AtPhase :=
  [unset, pending, running, done].find? fun phase => phase.text == stored

/-- The position of a phase in the forward order. -/
def position : AtPhase → Nat
  | unset => 0
  | pending => 1
  | running => 2
  | done => 3

/-- The position of a stored phase, if it is a known one. -/
def rank? (stored : String) : Option Nat :=
  (ofText? stored).map position

/-- Whether a move keeps the order; moves from or to an unknown phase do not. -/
def isForward (previous new : String) : Bool :=
  match rank? previous, rank? new with
  | some earlier, some later => earlier ≤ later
  | _, _ => false

end AtPhase

/-- The stages of a task. -/
inductive TaskPhase where
  | pending
  | running
  | succeeded
  | failed
  | unknown
  deriving Repr, DecidableEq, Inhabited

namespace TaskPhase

def text : TaskPhase → String
  | pending => "Pending"
  | running => "Running"
  | succeeded => "Succeeded"
  | failed => "Failed"
  | unknown => "Unknown"

def ofText? (stored : String) : Option TaskPhase :=
  [pending, running, succeeded, failed, unknown].find? fun phase =>
    phase.text == stored

/-- Whether a task in this phase has ended. -/
def isTerminal : TaskPhase → Bool
  | succeeded | failed => true
  | _ => false

end TaskPhase

/-- Whether a command that failed is started again. -/
inductive RestartPolicy where
  | always
  | onFailure
  | never
  deriving Repr, DecidableEq, Inhabited

namespace RestartPolicy

def text : RestartPolicy → String
  | always => "Always"
  | onFailure => "OnFailure"
  | never => "Never"

def ofText? (stored : String) : Option RestartPolicy :=
  [always, onFailure, never].find? fun policy => policy.text == stored

end RestartPolicy

end OneShot
