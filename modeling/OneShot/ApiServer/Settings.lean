import OneShot.Http.Retry
import OneShot.Resource.Key

/-!
# Access to an API server

Where the server is, how to prove who is calling, and the namespace of objects
that name none.
-/

namespace OneShot.ApiServer

/-- How the certificate of the server is checked. -/
inductive Verification where
  | checked (yes : Bool)
  /-- Against the authorities in a file. -/
  | authorities (file : String)
  deriving Repr, DecidableEq

/-- The access to a server. -/
structure Settings where
  server : String
  token : Option String := none
  ns : String := ObjectKey.defaultNamespace
  timeout : Float := 30.0
  verification : Verification := .checked true
  requestsPerSecond : Int := 50

namespace Settings

def token? (settings : Settings) : Option String :=
  settings.token.bind fun token => if token.isEmpty then none else some token

def headers (settings : Settings) : List (String × String) :=
  ("Accept", "application/json") ::
    (settings.token?.map fun token => ("Authorization", "Bearer " ++ token)).toList

/-- The address below which the paths of the server are. -/
def baseText (settings : Settings) : String :=
  String.ofList (Text.dropTail (· == '/') settings.server.toList)

def sendable (settings : Settings) : Bool :=
  settings.token?.all fun token => token.toList.all fun c => c.toNat < 0x80

/-- A client of the server; none if the server has no address. -/
def session? (settings : Settings) (policy : Http.RetryPolicy) : Option Http.Session :=
  (Http.Url.read? settings.baseText).map fun base =>
    { base, headers := settings.headers, policy }

end Settings

end OneShot.ApiServer
