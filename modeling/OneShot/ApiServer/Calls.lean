import OneShot.ApiServer.Settings
import OneShot.Client
import OneShot.Wire.Path
import OneShot.Wire.Translate

/-!
# Calls to an API server

Each call is one request, or a read followed by a write.  What the server
answers becomes either the payload of a success or a fault of the resources:
what is missing, what collides, what lost, and everything else that may pass.
Only a response that cannot be read at all, since it is nested too deep or its
text cannot be decoded, ends in a fault of another kind.
-/

namespace OneShot.ApiServer

open OneShot.Http

/-- What a request is about. -/
structure Subject where
  kind : ResourceKind
  /-- The object, unless the request is about a collection. -/
  key : Option ObjectKey := none
  deriving Repr, DecidableEq

/-- A request before it is addressed. -/
structure Order where
  method : String
  path : String
  subject : Subject
  body : Option Json := none

/-! ## Refusals -/

/-- The reason that tells a taken name from a lost write. -/
def takenReason : String := "AlreadyExists"

/-- The number of characters that are quoted from an answer without a report. -/
def excerptLength : Nat := 200

/-- The beginning of a text, if there is one. -/
def excerpt? (text : String) : Option String :=
  Wire.filled? (String.ofList (text.toList.take excerptLength))

/-- The report of a status that a response holds, if it holds one. -/
def report? (reading : Reading) (response : Response) : Option Wire.StatusModel :=
  (response.json reading.room).toOption.bind fun payload =>
    (Wire.StatusModel.read payload).value?

/-- The report in a refusal; where there is none, the beginning of the text stands for it. -/
def reportOf (reading : Reading) (response : Response) : Except Fault Wire.StatusModel :=
  match response.json reading.room, report? reading response with
  | .error .tooDeep, _ => .error (.other .tooDeep)
  | _, some report => .ok report
  | _, none =>
      match response.text? reading with
      | some text => .ok { code := some response.status, message := excerpt? text }
      | none => .error (.other .notDecodable)

/-- The words for a refusal: those of the report, else the usual ones. -/
def detailOf (response : Response) (report : Wire.StatusModel) : String :=
  ((report.message.bind Wire.filled?)).getD (reasonPhrase response.status)

/-- What a refusal stands for, by its status and its report. -/
def verdict (request : Request) (subject : Subject) (response : Response)
    (report : Wire.StatusModel) : Fault :=
  let detail := detailOf response report
  let other := Fault.transient
    (.refused request.method request.url.decodedPath response.status detail)
  if response.status = 404 then
    match subject.key with
    | some key => .notFound subject.kind key
    | none => other
  else if response.status = 409 then
    match report.reason == some takenReason, subject.key with
    | true, some key => .alreadyExists subject.kind key
    | _, _ => .conflict (.answered subject.kind subject.key detail)
  else other

def refusal (reading : Reading) (request : Request) (subject : Subject) (response : Response) :
    Fault :=
  match reportOf reading response with
  | .ok report => verdict request subject response report
  | .error fault => fault

/-! ## Answers -/

/-- The payload of a success; nothing at all is an empty object. -/
def payloadOf (reading : Reading) (order : Order) (response : Response) : Except Fault Json :=
  if response.content.isEmpty then .ok (.obj [])
  else
    match response.json reading.room with
    | .error .tooDeep => .error (.other .tooDeep)
    | .error .malformed => .error (.transient (.unreadable order.method order.path))
    | .ok (.obj members) => .ok (.obj members)
    | .ok _ => .error (.transient (.unexpected order.method order.path))

def thousandths (seconds : Float) : Nat :=
  (Decimal.Binary.ofBits seconds.abs.toBits).timesRounded 1000

def outcome (reading : Reading) (order : Order) (request : Request) (limit : Option Float) :
    Answer → Except Fault Json
  | .silence =>
      .error (.timedOut (.unanswered order.method order.path (thousandths (limit.getD 0))))
  | .trouble trouble =>
      .error (.transient (.unreachable order.method order.path trouble.text))
  | .response response =>
      if response.isSuccess then payloadOf reading order response
      else .error (refusal reading request order.subject response)

variable {σ : Type}

/-- The access to a server over a link. -/
structure Access (σ : Type) where
  settings : Settings
  policy : RetryPolicy
  link : Link σ
  reading : Reading := {}

def place (access : Access σ) (order : Order) (limit : Option Float) (state : σ) :
    Except Fault Json × σ :=
  if !access.settings.sendable then (.error (.other .notEncodable), state)
  else
    match (access.settings.session? access.policy).bind fun session =>
        session.request? order.method order.path order.body with
    | none => (.error (.other .invalidAddress), state)
    | some request =>
        let (answer, state) := access.policy.send access.link request state
        (outcome access.reading order request limit answer, state)

/-! ## Calls -/

def limitOf : Patience Float → Option Float
  | .unstated => none
  | .stated limit => limit

def readOrder (kind : ResourceKind) (key : ObjectKey) : Order :=
  { method := "GET", path := Wire.itemPath kind key, subject := ⟨kind, some key⟩ }

def listOrder (kind : ResourceKind) (ns : Option String) : Order :=
  { method := "GET", path := Wire.collectionPath kind ns, subject := ⟨kind, none⟩ }

def createOrder (kind : ResourceKind) (key : ObjectKey) (body : Json) : Order :=
  { method := "POST"
    path := Wire.collectionPath kind (some key.ns)
    subject := ⟨kind, some key⟩
    body := some body }

/-- The order of a write at a path. -/
def writeOrder (kind : ResourceKind) (key : ObjectKey) (path : String) (body : Json) : Order :=
  { method := "PUT", path, subject := ⟨kind, some key⟩, body := some body }

/-- What a deletion asks for: dependents go first. -/
def deletionOptions : Json :=
  .obj [("kind", .str "DeleteOptions"), ("apiVersion", .str "v1"),
    ("propagationPolicy", .str "Foreground")]

def deleteOrder (key : ObjectKey) : Order :=
  { method := "DELETE"
    path := Wire.itemPath .at key
    subject := ⟨.at, some key⟩
    body := some deletionOptions }

/-- An object with a member put in place of another. -/
def withMember (name : String) (value : Json) : Json → Json
  | .obj members => .obj (Assoc.put members name value)
  | other => other

def withoutMember (name : String) : Json → Json
  | .obj members => .obj (Assoc.erase members name)
  | other => other

/-- What a scheduled command asks for, as it is written. -/
def specPayload (spec : AtSpec) : Json :=
  .obj [("schedule", .str spec.schedule), ("command", .str spec.command)]

def textOrNull : Option String → Json
  | some text => .str text
  | none => .null

/-- The status of a task, as it is written. -/
def statusPayload (status : TaskStatus) : Json :=
  .obj [("phase", .str status.phase.text), ("reason", textOrNull status.reason),
    ("message", textOrNull status.message)]

/-- The tasks among the items of a listing.  Empty values hold no items; the
items of a text or of an object are texts, which are no tasks. -/
def itemsOf : Option Json → Except Fault (List Json)
  | none | some .null | some (.bool false) | some (.int 0) => .ok []
  | some (.float value) => if value == 0 then .ok [] else .error (.other .noItems)
  | some (.bool true) | some (.int _) => .error (.other .noItems)
  | some (.str text) => .ok (text.toList.map fun c => .str (String.singleton c))
  | some (.arr items) => .ok items
  | some (.obj members) => .ok (members.map fun member => .str member.1)

def ask {α : Type} (access : Access σ) (order : Order) (limit : Option Float)
    (decode : Json → Except Fault α) (state : σ) : Except Fault α × σ :=
  let (payload, state) := place access order limit state
  (payload.bind decode, state)

def serve (access : Access σ) (limit : Option Float) :
    (call : Call) → σ → Except Fault call.Reply × σ
  | .getAt key => ask access (readOrder .at key) limit (Wire.decodeAt home)
  | .listAts ns =>
      ask access (listOrder .at ns) limit
        (Wire.decodeAtList ((ns.bind Wire.filled?).getD home))
  | .updateAtStatus resource =>
      ask access
        (writeOrder .at resource.key (Wire.statusPath .at resource.key)
          (Wire.encodeAt resource))
        limit (Wire.decodeAt home)
  | .getTask key => ask access (readOrder .task key) limit (Wire.decodeTask home)
  | .createTask task =>
      ask access (createOrder .task task.key (Wire.encodeTask task)) limit
        (Wire.decodeTask home)
  | .createAt resource =>
      ask access
        (createOrder .at resource.key (withoutMember "status" (Wire.encodeAt resource)))
        none (Wire.decodeAt home)
  | .updateAtSpec key spec => fun state =>
      match ask access (readOrder .at key) none (Wire.decodeAt home) state with
      | (.error fault, state) => (.error fault, state)
      | (.ok current, state) =>
          ask access
            (writeOrder .at key (Wire.itemPath .at key)
              (withMember "spec" (specPayload spec) (Wire.encodeAt current)))
            none (Wire.decodeAt home) state
  | .deleteAt key => ask access (deleteOrder key) none fun _ => .ok ()
  | .listTasks ns =>
      ask access (listOrder .task ns) none fun payload => do
        let items ← itemsOf (payload.get? "items")
        items.mapM (Wire.decodeTask home)
  | .updateTaskStatus key status => fun state =>
      match ask access (readOrder .task key) none (Wire.decodeTask home) state with
      | (.error fault, state) => (.error fault, state)
      | (.ok current, state) =>
          ask access
            (writeOrder .task key (Wire.statusPath .task key)
              (withMember "status" (statusPayload status) (Wire.encodeTask current)))
            none (Wire.decodeTask home) state
where
  home : String := access.settings.ns

def client (access : Access σ) : Client σ Float := fun call patience state =>
  serve access (limitOf patience) call state

end OneShot.ApiServer
