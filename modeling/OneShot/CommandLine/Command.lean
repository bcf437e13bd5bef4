import OneShot.CommandLine.Arguments
import OneShot.Operations
import OneShot.Settings.Controller

/-!
# Commands

What a command line asks for: one of six commands, and where to find the
credentials for a server, before the name of the command or after it.  What is
asked for is checked before anything is done.
-/

namespace OneShot.CommandLine

open OneShot.Operations

/-- What a listing lists. -/
inductive Listed where
  | ats
  | tasks
  deriving Repr, DecidableEq

/-- A command. -/
inductive Command where
  | list (listed : Listed) (ns : Option String) (everywhere : Bool)
  | create (name : String) (spec : AtSpec) (ns : Option String)
  | edit (name : String) (change : Edit) (ns : Option String)
  | delete (name : String) (ns : Option String)
  | run (workers : Option Int) (resync : Option Float)

/-- A command, and the credentials that were named with it. -/
structure Invocation where
  credentials : Option String
  command : Command

/-! ## Grammars -/

def helpOption : OptionSpec :=
  { key := Grammar.helpKey, names := ["-h", "--help"], takesValue := false }

def credentialsOption : OptionSpec :=
  { key := "credentials", names := ["--credentials"] }

def namespaceOption : OptionSpec :=
  { key := "namespace", names := ["--namespace", "-n"] }

def scheduleOption : OptionSpec :=
  { key := "schedule", names := ["--schedule"] }

def commandOption : OptionSpec :=
  { key := "command", names := ["--command"] }

/-- The namespace to list, or all of them, but not both. -/
def scopeOptions : List OptionSpec :=
  [{ namespaceOption with rivals := ["everywhere"] },
   { key := "everywhere", names := ["--all-namespaces", "-A"], takesValue := false
     rivals := ["namespace"] }]

def controllerOptions : List OptionSpec :=
  [{ key := "workers", names := ["--workers"]
     admits := fun text => (Decimal.readInteger? text).isSome },
   { key := "resync", names := ["--resync-seconds"]
     admits := fun text => (Decimal.readFloat? text).isSome }]

/-- The words before the name of a command, and everything from it on. -/
def outerGrammar : Grammar :=
  { options := [helpOption, credentialsOption], operands := .remainder }

/-- A grammar with the options that all commands have. -/
def commandGrammar (options : List OptionSpec) (operands : Operands)
    (required : List String := []) : Grammar :=
  { options := helpOption :: options ++ [credentialsOption], operands, required }

/-- The grammars of the commands by their names. -/
def grammars : List (String × Grammar) :=
  [("list", commandGrammar scopeOptions .none),
   ("create", commandGrammar [scheduleOption, commandOption, namespaceOption] .one
      ["schedule", "command"]),
   ("edit", commandGrammar [scheduleOption, commandOption, namespaceOption] .one),
   ("delete", commandGrammar [namespaceOption] .one),
   ("run", commandGrammar controllerOptions .none),
   ("tasks", commandGrammar scopeOptions .none)]

/-! ## Reading -/

def Reading.value? (reading : Reading) (key : String) : Option String :=
  Assoc.get? reading.values key

def Reading.operand (reading : Reading) : String :=
  reading.operands.head?.getD ""

/-- The command of a name with its options. -/
def Command.ofReading? (name : String) (reading : Reading) : Option Command :=
  let ns := reading.value? "namespace"
  let everywhere := reading.has "everywhere"
  let schedule := reading.value? "schedule"
  let command := reading.value? "command"
  match name with
  | "list" => some (.list .ats ns everywhere)
  | "tasks" => some (.list .tasks ns everywhere)
  | "create" => some (.create reading.operand ⟨schedule.getD "", command.getD ""⟩ ns)
  | "edit" => some (.edit reading.operand ⟨schedule, command⟩ ns)
  | "delete" => some (.delete reading.operand ns)
  | "run" =>
      some (.run ((reading.value? "workers").bind Decimal.readInteger?)
        ((reading.value? "resync").bind Decimal.readFloat?))
  | _ => none

def Invocation.read (line : List String) : Except UsageFault Invocation := do
  let outer ← outerGrammar.read line
  let name := outer.operand
  let some grammar := Assoc.get? grammars name | throw (.unknown name)
  let inner ← grammar.read (outer.operands.drop 1)
  let some command := Command.ofReading? name inner | throw (.unknown name)
  if let word :: _ := outer.unknown ++ inner.unknown then throw (.unknown word)
  return { credentials := (inner.value? "credentials").or (outer.value? "credentials"), command }

/-! ## Checks before anything is done -/

/-- Why a command is not even begun. -/
inductive Refusal where
  | usage (fault : UsageFault)
  | operation (fault : Fault)
  | tooFewWorkers
  | resyncNotPositive
  | settings (fault : SettingsFault)

/-- The settings of the controller with the options of a command line. -/
def withOptions (workers : Option Int) (resync : Option Float) (settings : ControllerSettings) :
    ControllerSettings :=
  { settings with
    workers := workers.getD settings.workers
    resync := resync.or settings.resync }

namespace Command

def check : Command → Except Refusal Unit
  | list .. | delete .. => .ok ()
  | create _ spec _ => (checkSchedule spec.schedule).mapError .operation
  | edit _ change _ => change.check.mapError .operation
  | run workers resync =>
      if workers.any fun count => count < 1 then .error .tooFewWorkers
      else if resync.any fun period => period ≤ 0 then .error .resyncNotPositive
      else .ok ()

/-- The settings with which a command runs the controller, if it is to do so. -/
def settings (env : Environment) : Command → Except Refusal (Option ControllerSettings)
  | run workers resync => do
      let stated ← (ControllerSettings.ofEnvironment env).mapError .settings
      let settings ← (withOptions workers resync stated).check.mapError .settings
      return some settings
  | _ => .ok none

end Command

/-- What is to be done, once it is known to be meant. -/
structure Plan where
  invocation : Invocation
  settings : Option ControllerSettings

/-- What a command line asks for in an environment. -/
def Plan.read (env : Environment) (line : List String) : Except Refusal Plan := do
  let invocation ← (Invocation.read line).mapError .usage
  invocation.command.check
  return { invocation, settings := ← invocation.command.settings env }

end OneShot.CommandLine
