import OneShot.ApiServer.Settings
import OneShot.Http.Message
import OneShot.Json.Value
import OneShot.Decimal.Text
import OneShot.Queue.WorkQueue
import OneShot.Resource.Object
import OneShot.Settings.Controller
import OneShot.Store.Schema

/-!
# Reports

The resources and the queue of a simulation, as JSON: the counterpart of the
scripts that describe it.
-/

namespace OneShot.Report

open Calendar

def textOrNull : Option String → Json
  | some value => .str value
  | none => .null

def integerOrNull : Option Int → Json
  | some value => .int value
  | none => .null

/-- A number of the real line, or the name of one that is not. -/
def number (value : Float) : Json :=
  if value.isNaN || Decimal.isInfinite value then .str (Decimal.text value) else .float value

def numberOrNull : Option Float → Json
  | some value => number value
  | none => .null

def moment (value : DateTime) : Json :=
  .arr [.int value.date.year, .int value.date.month, .int value.date.day, .int value.hour,
    .int value.minute, .int value.second, .int value.microsecond, integerOrNull value.offset]

def owner (value : OwnerReference) : Json :=
  .obj [("api_version", .str value.apiVersion), ("kind", .str value.kind),
    ("name", .str value.name), ("uid", .str value.uid), ("controller", .bool value.controller),
    ("block", .bool value.blockOwnerDeletion)]

def orNull {α : Type} (report : α → Json) : Option α → Json
  | some value => report value
  | none => .null

def texts (entries : List (String × String)) : Json :=
  .obj (entries.map fun entry => (entry.1, .str entry.2))

def metadata (value : Metadata) : List (String × Json) :=
  [("name", .str value.name), ("namespace", .str value.ns), ("uid", .str value.uid),
   ("rv", .str value.resourceVersion), ("created", orNull moment value.created),
   ("labels", texts value.labels), ("owners", .arr (value.owners.map owner))]

def ofAt (value : At) : Json :=
  .obj (metadata value.metadata ++
    [("schedule", .str value.spec.schedule), ("command", .str value.spec.command),
     ("phase", .str value.phase)])

def ofTask (value : Task) : Json :=
  .obj (metadata value.metadata ++
    [("container",
        .obj [("name", .str value.container.name), ("image", .str value.container.image),
          ("command", .arr (value.container.command.map .str))]),
     ("restart_policy", .str value.restartPolicy.text),
     ("phase", .str value.status.phase.text), ("reason", textOrNull value.status.reason),
     ("message", textOrNull value.status.message)])

def event (value : ChangeEvent) : Json :=
  .obj [("kind", .str value.kind.text), ("type", .str value.type.text),
    ("key", .str value.key.text), ("owner", orNull owner value.owner)]

/-- A scheduled command in one line: its key, its phase and its version. -/
def atLine (value : At) : Json :=
  .arr [.str value.key.text, .str value.phase, .str value.metadata.resourceVersion]

/-- A task in one line: its key, its status and its version. -/
def taskLine (value : Task) : Json :=
  .arr [.str value.key.text, .str value.status.phase.text, textOrNull value.status.reason,
    textOrNull value.status.message, .str value.metadata.resourceVersion]

def sorted (values : List String) : Json :=
  .arr ((values.mergeSort fun first second => first ≤ second).map .str)

/-- The members for a queue, given the texts of its keys. -/
def queue {κ : Type} (text : κ → String) (value : WorkQueue κ Float) : List (String × Json) :=
  [("len", .int value.ready.length), ("ready", .arr (value.ready.map fun key => .str (text key))),
   ("dirty", sorted (value.dirty.map text)), ("in_flight", sorted (value.inFlight.map text)),
   ("waiting", .obj (value.waiting.map fun entry => (text entry.1, number entry.2))),
   ("shutting_down", .bool value.shuttingDown)]

def controllerSettings (value : ControllerSettings) : List (String × Json) :=
  [("workers", .int value.workers), ("backoff_base_seconds", number value.backoffBase),
   ("backoff_max_seconds", number value.backoffLimit),
   ("reconcile_timeout_seconds", numberOrNull value.timeout),
   ("conflict_requeue_seconds", number value.conflictDelay),
   ("max_retries", integerOrNull value.maxRetries),
   ("resync_seconds", numberOrNull value.resync),
   ("task_max_attempts", .int value.maxAttempts)]

def verification : ApiServer.Verification → Json
  | .checked yes => .bool yes
  | .authorities file => .str file

/-- The access to a server, and what its requests have in common. -/
def serverSettings (value : ApiServer.Settings) : Json :=
  .obj
    [("config",
        .obj [("server", .str value.server), ("token", textOrNull value.token),
          ("namespace", .str value.ns), ("timeout_seconds", number value.timeout),
          ("verify", verification value.verification),
          ("requests_per_second", .int value.requestsPerSecond)]),
     ("resilience",
        .obj [("name", .str "apiserver"), ("base_url", .str value.baseText),
          ("timeout_seconds", number value.timeout), ("headers", texts value.headers),
          ("verify", verification value.verification),
          ("max_calls", .int value.requestsPerSecond), ("per_seconds", .float 1.0)])]

def optional {α : Type} (name : String) (report : α → Json) (value : Option α) :
    List (String × Json) :=
  (value.map fun value => (name, report value)).toList

/-- A header of a request, by its name in lower case. -/
def header (value : Http.Request) (name : String) : List (String × Json) :=
  optional name (fun found => .str found.2) (value.headers.find? fun header =>
    String.ofList (header.1.toList.map Char.toLower) == name)

def request (value : Http.Request) : Json :=
  .obj ([("method", .str value.method), ("target", .str value.url.target),
      ("host", .str value.url.host)] ++
    header value "accept" ++ header value "authorization" ++ optional "body" id value.body)

def table (value : Schema.Table) : Json :=
  .obj
    [("columns", .arr (value.columns.map fun column =>
        .arr [.str column.name, .str column.type, .bool column.nullable])),
     ("unique", sorted value.unique), ("indexes", sorted value.indexes),
     ("foreign", .arr (value.references.map fun reference =>
        .arr [.arr (reference.columns.map .str), .str reference.table]))]

def lines (text : String) : Json :=
  .arr ((text.splitOn "\n").map .str)

end OneShot.Report
