import OneShot.ApiServer.Settings
import OneShot.Files.Tree
import OneShot.Settings.Environment
import OneShot.Toml.Reader

/-!
# Credentials

The access to a server is described by a file in TOML.  Its path is given, or
stands in the environment; a path that is blank means that there is no server.
Every entry of the file is judged in turn, and the first that cannot be used
is reported.
-/

namespace OneShot.ApiServer

open OneShot.Files
open OneShot.Decimal

/-- The variable that holds the path of the credentials. -/
def credentialsVariable : String := "CNAT_CREDENTIALS"

/-- The path that is named for the credentials; none if there is no server. -/
def namedPath (surroundings : Surroundings) (explicit : Option String) :
    Except SettingsUpset (Option Path) :=
  let env : Environment := surroundings.env
  match (explicit.or (env.value? credentialsVariable)).filter fun text =>
      !Text.isBlankText text with
  | none => .ok none
  | some text =>
      match (Path.ofText text).expandHome? surroundings.home with
      | none => .error .noHome
      | some path => .ok (some path)

/-- The path of the credentials, at which there must be a file. -/
def credentialsPath (surroundings : Surroundings) (explicit : Option String) :
    Except SettingsTrouble (Option Path) := do
  match ← (namedPath surroundings explicit).mapError .upset with
  | none => return none
  | some path =>
      if (surroundings.files.content? (surroundings.folder.below path)).isSome then
        return some path
      else throw (.fault (.noCredentials path.text))

/-! ## Entries -/

def serverOf (path : String) : Option Toml → Except SettingsFault String
  | some (.text server) =>
      if Text.isBlankText server then .error (.noServer path) else .ok (Text.trim server)
  | _ => .error (.noServer path)

def tokenOf : Option Toml → Except SettingsFault (Option String)
  | none => .ok none
  | some (.text token) => .ok (some token)
  | some _ => .error .tokenNotText

def namespaceOf : Option Toml → Except SettingsFault String
  | none => .ok ObjectKey.defaultNamespace
  | some (.text ns) => if ns.isEmpty then .error .namespaceNotText else .ok ns
  | some _ => .error .namespaceNotText

/-- The time for a request; a truth value counts as one or zero. -/
def timeoutOf : Option Toml → Except SettingsFault Quantity
  | none => .ok (.real 30.0)
  | some (.bool true) => .ok (.whole 1)
  | some (.number (.whole value)) =>
      if value ≤ 0 then .error .timeoutNotPositive else .ok (.whole value)
  | some (.number (.real value)) =>
      if value ≤ 0 then .error .timeoutNotPositive else .ok (.real value)
  | some _ => .error .timeoutNotPositive

def verificationOf : Option Toml → Except SettingsFault Verification
  | none => .ok (.checked true)
  | some (.bool yes) => .ok (.checked yes)
  | some (.text file) => .ok (.authorities file)
  | some _ => .error .verificationUnknown

def rateOf : Option Toml → Except SettingsFault Int
  | none => .ok 50
  | some (.number (.whole value)) =>
      if value < 1 then .error .rateNotPositive else .ok value
  | some _ => .error .rateNotPositive

/-- The float of a quantity; a whole number may be beyond all floats. -/
def finite (quantity : Quantity) : Except SettingsUpset Float :=
  match quantity with
  | .whole value =>
      let float := floatOfInt value
      if isInfinite float then .error .outOfRange else .ok float
  | .real value => .ok value

/-- The time for a request as it is stated, and all the other settings. -/
def Settings.stated (path : String) (document : Toml) :
    Except SettingsFault (Quantity × Settings) := do
  let server ← serverOf path (document.get? "server")
  let token ← tokenOf (document.get? "token")
  let ns ← namespaceOf (document.get? "namespace")
  let timeout ← timeoutOf (document.get? "timeout_seconds")
  let verification ← verificationOf (document.get? "verify")
  let requestsPerSecond ← rateOf (document.get? "requests_per_second")
  return (timeout, { server, token, ns, verification, requestsPerSecond })

def Settings.ofToml (path : String) (document : Toml) : Except SettingsTrouble Settings := do
  let (timeout, settings) ← (Settings.stated path document).mapError .fault
  let timeout ← (finite timeout).mapError .upset
  return { settings with timeout }

/-- The settings that the bytes of a file describe. -/
def Settings.ofBytes (room : List Char → Nat) (path : String) (content : Text.Bytes) :
    Except SettingsTrouble Settings :=
  match Text.ofUtf8? content with
  | none => .error (.upset .notUtf8)
  | some text =>
      match Toml.read room text with
      | .error .malformed => .error (.fault .malformedCredentials)
      | .error (.tooLong digits) => .error (.upset (.longInteger digits))
      | .error .tooDeep => .error (.upset .tooDeep)
      | .ok document => Settings.ofToml path document

/-- The settings for the server that was asked for, if one was. -/
def Settings.find (surroundings : Surroundings) (explicit : Option String) :
    Except SettingsTrouble (Option Settings) := do
  match ← credentialsPath surroundings explicit with
  | none => return none
  | some path =>
      let content := (surroundings.files.content? (surroundings.folder.below path)).getD []
      return some (← Settings.ofBytes surroundings.room path.text content)

end OneShot.ApiServer
