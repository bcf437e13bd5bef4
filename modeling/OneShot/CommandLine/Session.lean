import OneShot.ApiServer.Credentials
import OneShot.CommandLine.Command
import OneShot.Table.Listing

/-!
# Sessions of the command line

A command line is read and checked, then a store is opened, then the command is
carried out.  What is printed is printed at the end of a success only, so a
failure leaves nothing on the output; its status tells whether the fault lies in
what was asked or in carrying it out.
-/

namespace OneShot.CommandLine

open OneShot.Operations
open OneShot.Calendar

variable {σ : Type}

/-- A store, and what commands need to know besides. -/
structure Backend (σ : Type) where
  client : Client σ Float
  /-- The namespace of objects that name none. -/
  home : String
  /-- Whether the store is on this machine. -/
  isLocal : Bool

/-- The ways to a store. -/
structure Gateway (σ : Type) where
  /-- The store on this machine, if it can be opened. -/
  openLocal : σ → Option (Backend σ) × σ
  /-- The server of some settings, if it can be addressed. -/
  openServer : ApiServer.Settings → Option (Backend σ)
  /-- The moment on the wall. -/
  now : σ → DateTime

/-- A controller that is to be run. -/
structure Launch where
  settings : ControllerSettings
  isLocal : Bool
  home : String

/-- How a session ends. -/
inductive Ending where
  /-- With everything done. -/
  | success
  /-- With something that could not be done. -/
  | failure
  /-- With a command line or settings that cannot be meant. -/
  | misuse
  deriving Repr, DecidableEq

def Ending.status : Ending → Nat
  | success => 0
  | failure => 1
  | misuse => 2

/-- What a session leaves behind. -/
structure Outcome where
  ending : Ending
  output : String := ""
  launch : Option Launch := none

def Refusal.ending : Refusal → Ending
  | .usage .help => .success
  | .usage _ | .operation _ | .tooFewWorkers | .resyncNotPositive | .settings _ => .misuse

def failed : Outcome :=
  { ending := .failure }

def printed (line : String) : Outcome :=
  { ending := .success, output := line ++ "\n" }

/-- The lines of a listing, or a word on there being none. -/
def listed (absence : String) (isEmpty : Bool) (lines : Option (List String)) : Outcome :=
  if isEmpty then printed absence
  else
    match lines with
    | some lines => printed ("\n".intercalate lines)
    | none => failed

/-- What is printed of a change to a scheduled command. -/
def changed (done : String) {α : Type} (name : α → String) (answer : Except Fault α) : Outcome :=
  match answer with
  | .ok value => printed ("at/" ++ name value ++ " " ++ done)
  | .error _ => failed

/-- Carry out a command other than running the controller. -/
def perform (backend : Backend σ) (now : DateTime) (command : Command) (state : σ) :
    Outcome × σ :=
  let keyOf (name : String) (ns : Option String) : ObjectKey :=
    ⟨namespaceOr backend.home ns, name⟩
  match command with
  | .list .ats ns everywhere =>
      (listAts backend.client (scope backend.home ns everywhere) state).map
        (fun
          | .ok ats =>
              listed "No At resources found" ats.isEmpty (Table.atListing? everywhere now ats)
          | .error _ => failed) id
  | .list .tasks ns everywhere =>
      (listTasks backend.client (scope backend.home ns everywhere) state).map
        (fun
          | .ok tasks =>
              listed "No tasks found" tasks.isEmpty (Table.taskListing? everywhere now tasks)
          | .error _ => failed) id
  | .create name spec ns =>
      (create backend.client (keyOf name ns) spec state).map
        (changed "created" (·.metadata.name)) id
  | .edit name change ns =>
      (edit backend.client (keyOf name ns) change state).map
        (changed "edited" (·.metadata.name)) id
  | .delete name ns =>
      (delete backend.client (keyOf name ns) state).map (changed "deleted" (·.name)) id
  | .run .. => (failed, state)

def openStore (gateway : Gateway σ) (surroundings : Files.Surroundings)
    (credentials : Option String) (state : σ) : Except Ending (Backend σ) × σ :=
  match ApiServer.Settings.find surroundings credentials with
  | .error (.fault _) => (.error .misuse, state)
  | .error (.upset _) => (.error .failure, state)
  | .ok (some settings) =>
      match gateway.openServer settings with
      | some backend => (.ok backend, state)
      | none => (.error .failure, state)
  | .ok none =>
      match gateway.openLocal state with
      | (some backend, state) => (.ok backend, state)
      | (none, state) => (.error .failure, state)

def carryOut (gateway : Gateway σ) (surroundings : Files.Surroundings) (plan : Plan) (state : σ) :
    Outcome × σ :=
  match openStore gateway surroundings plan.invocation.credentials state with
  | (.error ending, state) => ({ ending }, state)
  | (.ok backend, state) =>
      match plan.settings with
      | some settings =>
          ({ ending := .success
             launch := some { settings, isLocal := backend.isLocal, home := backend.home } },
            state)
      | none => perform backend (gateway.now state) plan.invocation.command state

/-- A session, from the command line to its outcome. -/
def session (gateway : Gateway σ) (surroundings : Files.Surroundings) (line : List String)
    (state : σ) : Outcome × σ :=
  match Plan.read surroundings.env line with
  | .error refusal => ({ ending := refusal.ending }, state)
  | .ok plan => carryOut gateway surroundings plan state

end OneShot.CommandLine
