import OneShot.Http.Url
import OneShot.Json.Reader
import OneShot.Json.Writer

/-!
# Requests and their answers

A request is answered by a response, or by trouble on the way, or not at all.
-/

namespace OneShot.Http

open OneShot.Text

/-- A request. -/
structure Request where
  method : String
  url : Url
  headers : List (String × String) := []
  body : Option Json := none

/-- A response. -/
structure Response where
  status : Nat
  headers : List (String × String) := []
  content : Bytes := []

def Response.isSuccess (response : Response) : Bool :=
  200 ≤ response.status && response.status ≤ 299

def Response.text (response : Response) : String :=
  ofUtf8Lossy response.content

/-- The value that a response holds, if it is not nested deeper than there is room for. -/
def Response.json (response : Response) (room : Nat) : Except Json.ReadFault Json :=
  (Json.wellFormed (ofJsonBytes? response.content)).bind (Json.read room)

/-- The value of a header; the case of names does not matter. -/
def Response.header? (response : Response) (name : String) : Option String :=
  (response.headers.find? fun header =>
    header.1.toList.map Char.toLower == name.toList.map Char.toLower).map (·.2)

def Response.ofText (status : Nat) (text : String)
    (headers : List (String × String) := []) : Response :=
  ⟨status, headers, utf8Bytes text⟩

def Response.ofJson (status : Nat) (value : Json)
    (headers : List (String × String) := []) : Response :=
  .ofText status (value.write .compact) headers

/-- How responses are read: what the reader of JSON has room for, and how the
text of a response is decoded by what its headers say of it.  A text may be said
to be in a code by which no text can be decoded. -/
structure Reading where
  room : Nat := Json.usualRoom
  decode : List (String × String) → Bytes → Option String := fun _ content =>
    some (ofUtf8Lossy content)

/-- The text of a response, if it can be decoded; nothing at all is decoded by any code. -/
def Response.text? (response : Response) (reading : Reading) : Option String :=
  if response.content.isEmpty then some ""
  else reading.decode response.headers response.content

/-- The kinds of trouble on the way to an answer. -/
inductive TroubleKind where
  | connectTimeout
  | readTimeout
  | writeTimeout
  | poolTimeout
  | timeout
  | connect
  | read
  | write
  | close
  | network
  | remoteProtocol
  | localProtocol
  | protocol
  | proxy
  | unsupportedProtocol
  | transport
  | decoding
  | tooManyRedirects
  | request
  | other
  deriving Repr, DecidableEq

/-- The families of trouble that a policy can name. -/
inductive TroubleFamily where
  | timeouts
  | network
  | remoteProtocol
  deriving Repr, DecidableEq

/-- The name of a family. -/
def TroubleFamily.text : TroubleFamily → String
  | timeouts => "TimeoutException"
  | network => "NetworkError"
  | remoteProtocol => "RemoteProtocolError"

/-- The family of a kind of trouble, if it has one. -/
def TroubleKind.family? : TroubleKind → Option TroubleFamily
  | connectTimeout | readTimeout | writeTimeout | poolTimeout | timeout => some .timeouts
  | connect | read | write | close | network => some .network
  | remoteProtocol => some .remoteProtocol
  | _ => none

/-- Trouble on the way to an answer. -/
structure Trouble where
  kind : TroubleKind
  text : String
  deriving Repr, DecidableEq

/-- What becomes of a request. -/
inductive Answer where
  | response (response : Response)
  | trouble (trouble : Trouble)
  /-- Nobody ever answers. -/
  | silence

/-- What lies between a client and its server: the exchange of a request for
its answer, and pauses. -/
structure Link (σ : Type) where
  exchange : Request → σ → Answer × σ
  pause : Float → σ → σ

def reasonPhrases : List (Nat × String) :=
  [(100, "Continue"), (101, "Switching Protocols"), (102, "Processing"), (103, "Early Hints"),
   (200, "OK"), (201, "Created"), (202, "Accepted"), (203, "Non-Authoritative Information"),
   (204, "No Content"), (205, "Reset Content"), (206, "Partial Content"),
   (207, "Multi-Status"), (208, "Already Reported"), (226, "IM Used"),
   (300, "Multiple Choices"), (301, "Moved Permanently"), (302, "Found"), (303, "See Other"),
   (304, "Not Modified"), (305, "Use Proxy"), (307, "Temporary Redirect"),
   (308, "Permanent Redirect"), (400, "Bad Request"), (401, "Unauthorized"),
   (402, "Payment Required"), (403, "Forbidden"), (404, "Not Found"),
   (405, "Method Not Allowed"), (406, "Not Acceptable"),
   (407, "Proxy Authentication Required"), (408, "Request Timeout"), (409, "Conflict"),
   (410, "Gone"), (411, "Length Required"), (412, "Precondition Failed"),
   (413, "Request Entity Too Large"), (414, "Request-URI Too Long"),
   (415, "Unsupported Media Type"), (416, "Requested Range Not Satisfiable"),
   (417, "Expectation Failed"), (418, "I'm a teapot"), (421, "Misdirected Request"),
   (422, "Unprocessable Entity"), (423, "Locked"), (424, "Failed Dependency"),
   (425, "Too Early"), (426, "Upgrade Required"), (428, "Precondition Required"),
   (429, "Too Many Requests"), (431, "Request Header Fields Too Large"),
   (451, "Unavailable For Legal Reasons"), (500, "Internal Server Error"),
   (501, "Not Implemented"), (502, "Bad Gateway"), (503, "Service Unavailable"),
   (504, "Gateway Timeout"), (505, "HTTP Version Not Supported"),
   (506, "Variant Also Negotiates"), (507, "Insufficient Storage"), (508, "Loop Detected"),
   (510, "Not Extended"), (511, "Network Authentication Required")]

/-- The usual words for a status code, empty for others. -/
def reasonPhrase (status : Nat) : String :=
  (Assoc.get? reasonPhrases status).getD ""

end OneShot.Http
