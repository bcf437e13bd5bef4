import OneShot.Proofs.ApiServer.Updates
import OneShot.Proofs.Http.Addresses
import OneShot.Proofs.Json.Nesting

/-!
# How calls fail

Whatever an API server answers, a call ends with what the answer holds or with one of the faults
that clients of the resources report, and the answer decides with which.  Four things get past
them: a listing of tasks whose items are a number or a truth value, a body that is nested deeper
than there is room for, a refusal in a code by which it cannot be decoded, and names so long that
they make no address.
-/

namespace OneShot.ApiServer

open Http Wire

/-! ## What an answer says -/

/-- The object that a response holds; a response without content holds an empty one. -/
def object? (reading : Reading) (response : Response) : Option Json :=
  if response.content.isEmpty then some (.obj [])
  else
    match response.json reading.room with
    | .ok (.obj members) => some (.obj members)
    | _ => none

/-- The reason that a response gives, if it holds a report of a status. -/
def reason? (reading : Reading) (response : Response) : Option String :=
  (report? reading response).bind (·.reason)

/-- Why an answer cannot be read, if it cannot.  Only the text of a refusal without a report is
decoded. -/
def unread? (reading : Reading) : Answer → Option OtherCause
  | .response response =>
      match response.json reading.room with
      | .error .tooDeep => some .tooDeep
      | _ =>
          if response.isSuccess || (report? reading response).isSome ||
              (response.text? reading).isSome then none
          else some .notDecodable
  | .trouble _ | .silence => none

/-- A success that holds an object. -/
def Holds (reading : Reading) (answer : Answer) (payload : Json) : Prop :=
  ∃ response, answer = .response response ∧ response.isSuccess = true ∧
    object? reading response = some payload

def HasStatus (answer : Answer) (status : Nat) : Prop :=
  ∃ response, answer = .response response ∧ response.status = status

def ReportsTaken (reading : Reading) (answer : Answer) : Prop :=
  ∃ response, answer = .response response ∧ response.status = 409 ∧
    reason? reading response = some "AlreadyExists"

section Answers

variable {reading : Reading} {payload : Json} {status : Nat} {trouble : Trouble}
  {response : Response} {answer : Answer}

@[simp] theorem not_holds_silence : ¬ Holds reading .silence payload := by simp [Holds]

@[simp] theorem not_holds_trouble : ¬ Holds reading (.trouble trouble) payload := by simp [Holds]

@[simp] theorem not_hasStatus_silence : ¬ HasStatus .silence status := by simp [HasStatus]

@[simp] theorem not_hasStatus_trouble : ¬ HasStatus (.trouble trouble) status := by
  simp [HasStatus]

@[simp] theorem not_reportsTaken_silence : ¬ ReportsTaken reading .silence := by
  simp [ReportsTaken]

@[simp] theorem not_reportsTaken_trouble : ¬ ReportsTaken reading (.trouble trouble) := by
  simp [ReportsTaken]

@[simp] theorem unread?_silence : unread? reading .silence = none := rfl

@[simp] theorem unread?_trouble : unread? reading (.trouble trouble) = none := rfl

end Answers

/-! ## What a call asks -/

/-- The names that a call brings into the paths of its requests. -/
def namesOf : Call → List String
  | .getAt key | .updateAtSpec key _ | .deleteAt key | .getTask key | .updateTaskStatus key _ =>
      [key.ns, key.name]
  | .updateAtStatus resource => [resource.key.ns, resource.key.name]
  | .createAt resource => [resource.key.ns]
  | .createTask task => [task.key.ns]
  | .listAts ns | .listTasks ns => ns.toList

def decodeReply (home : String) : (call : Call) → Json → Except Fault call.Reply
  | .getAt _ => decodeAt home
  | .listAts ns => decodeAtList ((ns.bind filled?).getD home)
  | .updateAtStatus _ => decodeAt home
  | .getTask _ => decodeTask home
  | .createTask _ => decodeTask home
  | .createAt _ => decodeAt home
  | .updateAtSpec _ _ => decodeAt home
  | .deleteAt _ => fun _ => .ok ()
  | .listTasks _ => fun payload => do
      let items ← itemsOf (payload.get? "items")
      items.mapM (decodeTask home)
  | .updateTaskStatus _ _ => decodeTask home

variable {σ : Type}

/-- The request that decides how a call ends, with its time limit and the state that it is made in:
a change reads the object first, and writes it if it could be read. -/
def decisive (access : Access σ) (limit : Option Float) : Call → σ → Order × Option Float × σ
  | .getAt key, state => (readOrder .at key, limit, state)
  | .listAts ns, state => (listOrder .at ns, limit, state)
  | .updateAtStatus resource, state =>
      (writeOrder .at resource.key (statusPath .at resource.key) (encodeAt resource), limit, state)
  | .getTask key, state => (readOrder .task key, limit, state)
  | .createTask task, state => (createOrder .task task.key (encodeTask task), limit, state)
  | .createAt resource, state =>
      (createOrder .at resource.key (withoutMember "status" (encodeAt resource)), none, state)
  | .updateAtSpec key spec, state =>
      match ask access (readOrder .at key) none (decodeAt access.settings.ns) state with
      | (.error _, _) => (readOrder .at key, none, state)
      | (.ok current, middle) =>
          (writeOrder .at key (itemPath .at key) (respecified spec current), none, middle)
  | .deleteAt key, state => (deleteOrder key, none, state)
  | .listTasks ns, state => (listOrder .task ns, none, state)
  | .updateTaskStatus key status, state =>
      match ask access (readOrder .task key) none (decodeTask access.settings.ns) state with
      | (.error _, _) => (readOrder .task key, none, state)
      | (.ok current, middle) =>
          (writeOrder .task key (statusPath .task key) (reported status current), none, middle)

variable {access : Access σ} {limit : Option Float} {call : Call} {state : σ}

theorem ask_fst {α : Type} (order : Order) (decode : Json → Except Fault α) :
    (ask access order limit decode state).1 = (place access order limit state).1.bind decode :=
  rfl

theorem serve_fst (access : Access σ) (limit : Option Float) (call : Call) (state : σ) :
    (serve access limit call state).1 =
      (place access (decisive access limit call state).1 (decisive access limit call state).2.1
        (decisive access limit call state).2.2).1.bind (decodeReply access.settings.ns call) := by
  cases call with
  | updateAtSpec key spec =>
      -- a read that fails decides the call, and then it is the read that is decoded
      cases hread : ask access (readOrder .at key) none (decodeAt access.settings.ns) state with
      | mk answer middle =>
          cases answer with
          | error fault =>
              simp only [serve, decisive, serve.home, hread]
              exact (congrArg Prod.fst hread).symm
          | ok current =>
              simp only [serve, decisive, decodeReply, serve.home, hread]
              exact ask_fst _ _
  | updateTaskStatus key status =>
      cases hread : ask access (readOrder .task key) none (decodeTask access.settings.ns) state with
      | mk answer middle =>
          cases answer with
          | error fault =>
              simp only [serve, decisive, serve.home, hread]
              exact (congrArg Prod.fst hread).symm
          | ok current =>
              simp only [serve, decisive, decodeReply, serve.home, hread]
              exact ask_fst _ _
  | _ => simp only [serve, decisive, decodeReply, serve.home, ask_fst]

variable {home : String} {payload : Json}

section Refusals

variable {reading : Reading} {request : Request} {subject : Subject} {response : Response}
  {report : StatusModel} {key : ObjectKey}

end Refusals

/-! ## How a call ends -/

section Ends

variable {reading : Reading} {order : Order} {request : Request} {response : Response}
  {answer : Answer} {result : Except Fault call.Reply}

end Ends

/-! ## Addresses -/

def isPrintable (text : String) : Bool :=
  !text.toList.any fun c => c.toNat < 0x20 || c.toNat == 0x7F

/-- A path without control characters that cannot be taken for a host or a scheme. -/
structure IsPath (path : String) : Prop where
  head : ∃ rest, path.toList = '/' :: 'a' :: rest
  printable : isPrintable path = true

section Paths

variable {path more : String} {kind : ResourceKind} {key : ObjectKey} {base : Url}

theorem IsPath.read? (hpath : IsPath path) (hshort : path.toList.length ≤ longestReference) :
    ∃ tail query, Reference.read? path = some { path := '/' :: 'a' :: tail, query } := by
  obtain ⟨rest, hhead⟩ := hpath.head
  have hplain : (path.toList.any fun c => c.toNat < 0x20 || c.toNat == 0x7F) = false := by
    simpa [isPrintable] using hpath.printable
  rw [Reference.read?_of_head hhead, hplain, Bool.false_or, decide_eq_false hshort.not_gt,
    if_neg Bool.false_ne_true]
  exact ⟨_, _, rfl⟩

theorem IsPath.append (hpath : IsPath path) (hmore : isPrintable more = true) :
    IsPath (path ++ more) := by
  obtain ⟨rest, hhead⟩ := hpath.head
  constructor
  · exact ⟨rest ++ more.toList, by simp [String.toList_append, hhead]⟩
  · have hprintable := hpath.printable
    simp only [isPrintable, Bool.not_eq_true'] at hprintable hmore ⊢
    rw [String.toList_append, List.any_append, hprintable, hmore, Bool.or_false]

end Paths

section Sending

variable {session : Session} {order : Order} {request : Request}

end Sending

end OneShot.ApiServer
