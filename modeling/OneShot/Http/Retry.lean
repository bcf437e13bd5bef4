import OneShot.Http.Message
import OneShot.Text.Blank

/-!
# Trying again

A policy says which requests are tried again, after which answers, how often,
and after what pause.
-/

namespace OneShot.Http

open OneShot.Text

/-- When a request is tried again. -/
structure RetryPolicy where
  /-- How many times at most. -/
  total : Int := 3
  backoffFactor : Float := 0.5
  /-- The longest pause. -/
  longestPause : Float := 10.0
  /-- Whether a pause that the server asks for is granted. -/
  respectsRetryAfter : Bool := true
  methods : List String := ["GET", "HEAD", "OPTIONS", "POST", "PUT"]
  statuses : List Nat := [429, 500, 502, 503, 504]
  troubles : List TroubleFamily := [.timeouts, .network, .remoteProtocol]
  /-- The part of a pause that is left to chance. -/
  jitter : Float := 1.0

/-- Why a policy cannot be used. -/
inductive RetryFault where
  | total
  | backoffFactor
  | longestPause
  | jitter
  deriving Repr, DecidableEq

def RetryFault.message : RetryFault → String
  | total => "total must be non-negative"
  | backoffFactor => "backoff_factor must be non-negative"
  | longestPause => "max_backoff_wait must be positive"
  | jitter => "backoff_jitter must be between 0 and 1"

/-- The name of a method, in upper case. -/
def methodName (method : String) : String :=
  String.ofList (method.toList.map Char.toUpper)

namespace RetryPolicy

/-- The methods that are tried again if none is named. -/
def safeMethods : List String := ["DELETE", "GET", "HEAD", "OPTIONS", "PUT", "TRACE"]

/-- The statuses that are tried again if none is named. -/
def busyStatuses : List Nat := [429, 502, 503, 504]

/-- Check a policy and fill in what it leaves open; methods are in upper
case. -/
def prepare (policy : RetryPolicy) : Except RetryFault RetryPolicy :=
  if policy.total < 0 then .error .total
  else if policy.backoffFactor < 0 then .error .backoffFactor
  else if policy.longestPause ≤ 0 then .error .longestPause
  else if !(0 ≤ policy.jitter && policy.jitter ≤ 1) then .error .jitter
  else
    let methods := policy.methods.map methodName
    .ok { policy with
      methods := if methods.isEmpty then safeMethods else methods
      statuses := if policy.statuses.isEmpty then busyStatuses else policy.statuses }

/-- Whether a request is tried again after an answer. -/
def retries (policy : RetryPolicy) : Answer → Bool
  | .response response => policy.statuses.contains response.status
  | .trouble trouble => trouble.kind.family?.any policy.troubles.contains
  | .silence => false

/-- The number of seconds that a server asks for. -/
def askedPause? (answer : Answer) : Option Nat :=
  match answer with
  | .response response => do
      let asked ← response.header? "Retry-After"
      let digits ← (trim asked).toList.mapM asciiDigit?
      let seconds := numberOfDigits digits
      if digits.isEmpty || seconds == 0 then none else some seconds
  | _ => none

def lesser (first second : Float) : Float :=
  if second < first then second else first

/-- The pause after an answer before a numbered attempt is made again: what
the server asks for, else doubled from the factor on, and never longer than the
longest. -/
def pauseAfter (policy : RetryPolicy) (attempt : Nat) (answer : Answer) : Float :=
  let asked := if policy.respectsRetryAfter then askedPause? answer else none
  match asked with
  | some seconds => lesser (Float.ofNat seconds) policy.longestPause
  | none =>
      if policy.backoffFactor == 0 then 0
      else lesser (policy.backoffFactor * Float.ofNat (Nat.pow 2 attempt)) policy.longestPause

variable {σ : Type}

/-- Send a request up to a number of times more, some attempts having been
made. -/
def sendFrom (policy : RetryPolicy) (link : Link σ) (request : Request) :
    (further made : Nat) → σ → Answer × σ
  | 0, _, state => link.exchange request state
  | further + 1, made, state =>
      let (answer, state) := link.exchange request state
      if policy.retries answer then
        sendFrom policy link request further (made + 1)
          (link.pause (policy.pauseAfter (made + 1) answer) state)
      else (answer, state)

/-- Send a request, and send it again as the policy says. -/
def send (policy : RetryPolicy) (link : Link σ) (request : Request) (state : σ) :
    Answer × σ :=
  if policy.methods.contains request.method then
    policy.sendFrom link request policy.total.toNat 0 state
  else link.exchange request state

end RetryPolicy

/-- A client of one server. -/
structure Session where
  base : Url
  headers : List (String × String) := []
  policy : RetryPolicy := {}

/-- The request for a reference; none if the reference is no address. -/
def Session.request? (session : Session) (method reference : String) (body : Option Json) :
    Option Request :=
  (Url.resolve? session.base reference).map fun url =>
    { method := methodName method, url, headers := session.headers, body }

end OneShot.Http
