/-!
# The workers of a dispatcher

A dispatcher has a fixed number of workers, at least one.  They are put to work
once, and again only after they were stopped.
-/

namespace OneShot

/-- The workers of a dispatcher. -/
structure Staff where
  name : String := "at"
  size : Nat
  working : Bool := false
  size_pos : 0 < size

/-- Why workers cannot be had or put to work. -/
inductive StaffFault where
  | nobody
  | alreadyWorking (name : String)
  deriving Repr, DecidableEq

def StaffFault.message : StaffFault → String
  | nobody => "Dispatcher needs at least one worker"
  | alreadyWorking name => "Dispatcher " ++ name ++ " already started"

namespace Staff

def hire (size : Int) : Except StaffFault Staff :=
  if h : 0 < size then .ok { size := size.toNat, size_pos := by omega }
  else .error .nobody

def start (staff : Staff) : Except StaffFault Staff :=
  if staff.working then .error (.alreadyWorking staff.name)
  else .ok { staff with working := true }

def dismiss (staff : Staff) : Staff :=
  { staff with working := false }

end Staff

end OneShot
