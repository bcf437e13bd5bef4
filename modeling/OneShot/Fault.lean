import OneShot.Resource.Object
import OneShot.Schedule
import OneShot.Decimal.Round
import OneShot.Decimal.Text
import OneShot.Wire.Fault

/-!
# Faults

Everything that a client of the resources can report, by cause.  Workers only
ask for the class of a fault; the wording of each cause is in `message`.
-/

namespace OneShot

open OneShot.Text

/-- Why a conditional write lost. -/
inductive ConflictCause where
  /-- The version that was read is no longer the stored one. -/
  | stale (key : ObjectKey) (version : Int)
  /-- The version that was read names no version. -/
  | unusable (version : String)
  /-- The versions differ, as texts. -/
  | newer (key : ObjectKey)
  /-- A server reports the conflict. -/
  | answered (kind : ResourceKind) (key : Option ObjectKey) (detail : String)
  | reported (text : String)
  deriving Repr, DecidableEq

/-- The resources that a payload may fail to hold. -/
inductive PayloadKind where
  | at
  | atList
  | task
  deriving Repr, DecidableEq

/-- Why a call failed that may succeed later. -/
inductive TransientCause where
  | database
  /-- The request could not be carried out. -/
  | unreachable (method path text : String)
  /-- The server answered with a failure. -/
  | refused (method path : String) (code : Nat) (detail : String)
  /-- The answer is not JSON. -/
  | unreadable (method path : String)
  /-- The answer is not an object. -/
  | unexpected (method path : String)
  | malformed (payload : PayloadKind) (faults : List Wire.Fault)
  /-- A task without containers. -/
  | emptyTask (name : String)
  | reported (text : String)
  deriving Repr, DecidableEq

/-- Why time ran out. -/
inductive TimeoutCause where
  /-- The deadline passed between calls. -/
  | expired
  /-- A request was not answered in time; the time is in thousandths. -/
  | unanswered (method path : String) (thousandths : Nat)
  | reported (text : String)
  deriving Repr, DecidableEq

/-- Why a schedule was refused. -/
inductive ScheduleCause where
  | malformed (fault : ScheduleFault)
  | reported (text : String)
  deriving Repr, DecidableEq

/-- Why a move of the phase was refused. -/
inductive PhaseCause where
  | backward (key : ObjectKey) (previous new : String)
  | reported (text : String)
  deriving Repr, DecidableEq

/-- Faults that no client is meant to report. -/
inductive OtherCause where
  /-- A value that cannot be used. -/
  | value (text : String)
  /-- A value that is none of those of its type. -/
  | notOneOf (found type : String)
  /-- An edit that names no change. -/
  | nothingToChange
  | runtime (text : String)
  /-- An entry that is not there. -/
  | absent
  /-- A number or a moment beyond its range. -/
  | outOfRange
  /-- A stored text that is not JSON. -/
  | notJson
  /-- A text that is nested deeper than can be read. -/
  | tooDeep
  /-- A text that cannot be sent. -/
  | notEncodable
  /-- A text in a code by which it cannot be decoded. -/
  | notDecodable
  /-- Moments with and without an offset do not mix. -/
  | mixedMoments
  | invalidAddress
  /-- A value that has no items. -/
  | noItems
  /-- A command line without a program. -/
  | emptyCommand
  deriving Repr, DecidableEq

/-- A fault of a call. -/
inductive Fault where
  | notFound (kind : ResourceKind) (key : ObjectKey)
  | alreadyExists (kind : ResourceKind) (key : ObjectKey)
  | conflict (cause : ConflictCause)
  | timedOut (cause : TimeoutCause)
  | transient (cause : TransientCause)
  /-- A fault of the resources of no class of its own. -/
  | resource (text : String)
  | schedule (cause : ScheduleCause)
  | phase (cause : PhaseCause)
  | other (cause : OtherCause)
  deriving Repr, DecidableEq

/-! ## Wording -/

def thousandthsText (count : Nat) : String :=
  natText (count / 1000) ++ "." ++ String.ofList (paddedDigits 3 (count % 1000))

def ConflictCause.message : ConflictCause → String
  | stale key version =>
      "At " ++ key.text ++ " was modified since resource version " ++ intText version ++
        "; re-read and retry"
  | unusable version => "Unusable resource version " ++ quoted version
  | newer key => "At " ++ key.text ++ " has a newer resource version"
  | answered kind key detail =>
      kind.text ++ " " ++ (key.map ObjectKey.text).getD "None" ++ ": " ++ detail
  | reported text => text

/-- The wording for a pod that has nothing to run. -/
def emptyPodText (name : String) : String :=
  "Pod " ++ name ++ " has no containers"

def PayloadKind.text : PayloadKind → String
  | .at => "At payload"
  | .atList => "At list"
  | .task => "Pod payload"

/-- The wording of a failure that may pass. -/
def TransientCause.message : TransientCause → String
  | database => "Database error"
  | unreachable method path text => method ++ " " ++ path ++ " failed: " ++ text
  | refused method path code detail =>
      method ++ " " ++ path ++ " failed with " ++ natText code ++ ": " ++ detail
  | unreadable method path => method ++ " " ++ path ++ " returned invalid JSON"
  | unexpected method path => method ++ " " ++ path ++ " returned an unexpected payload"
  | malformed payload _ => "Malformed " ++ payload.text
  | emptyTask name => "Malformed Pod payload: " ++ emptyPodText name
  | reported text => text

def TimeoutCause.message : TimeoutCause → String
  | expired => "reconcile deadline exceeded"
  | unanswered method path thousandths =>
      method ++ " " ++ path ++ " did not finish within " ++ thousandthsText thousandths ++ "s"
  | reported text => text

def ScheduleCause.message : ScheduleCause → String
  | malformed fault => fault.message
  | reported text => text

def PhaseCause.message : PhaseCause → String
  | backward key previous new =>
      "Refusing to move " ++ key.text ++ " from " ++ quoted previous ++ " to " ++ quoted new
  | reported text => text

/-- The wording of a fault outside the resources, if it has one. -/
def OtherCause.message? : OtherCause → Option String
  | value text => some text
  | notOneOf found type => some (quoted found ++ " is not a valid " ++ type)
  | nothingToChange => some "Nothing to change: pass --schedule and/or --command"
  | runtime text => some text
  | _ => none

/-- The wording of a fault, if it has one. -/
def Fault.message? : Fault → Option String
  | notFound kind key => some (kind.text ++ " " ++ key.text ++ " not found")
  | alreadyExists kind key => some (kind.text ++ " " ++ key.text ++ " already exists")
  | conflict cause => some cause.message
  | timedOut cause => some cause.message
  | transient cause => some cause.message
  | resource text => some text
  | schedule cause => some cause.message
  | phase cause => some cause.message
  | other cause => cause.message?

/-! ## Classes -/

def Fault.isNotFound : Fault → Bool
  | notFound .. => true
  | _ => false

def Fault.isAlreadyExists : Fault → Bool
  | alreadyExists .. => true
  | _ => false

def Fault.isConflict : Fault → Bool
  | conflict _ => true
  | _ => false

/-- Whether the fault is one that clients of the resources report. -/
def Fault.isOfResources : Fault → Bool
  | notFound .. | alreadyExists .. | conflict _ | timedOut _ | transient _ | resource _ => true
  | schedule _ | phase _ | other _ => false

end OneShot
