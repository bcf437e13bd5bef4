import OneShot.Decimal.Quantity
import OneShot.Text.Quoted

/-!
# Faults of settings

Why settings cannot be used, by cause.  The causes of the first type are
mistakes of whoever wrote the settings; those of the second are conditions
that the reading of settings does not foresee.
-/

namespace OneShot

open OneShot.Text

/-- A mistake in the settings. -/
inductive SettingsFault where
  /-- Variables that are not there, or blank. -/
  | missing (names : List String)
  | notInteger (name raw : String)
  | notNumber (name raw : String)
  | tooSmall (name : String) (least found : Decimal.Quantity)
  | tooFewWorkers (found : Int)
  | backoffBaseNotPositive
  | backoffLimitBelowBase
  | resyncNotPositive
  | tooFewAttempts
  /-- No file at the path of the credentials. -/
  | noCredentials (path : String)
  /-- A file of credentials that is not TOML. -/
  | malformedCredentials
  /-- A file of credentials without a server. -/
  | noServer (path : String)
  | tokenNotText
  | namespaceNotText
  | timeoutNotPositive
  | verificationUnknown
  | rateNotPositive

namespace SettingsFault

/-- Whether the fault is that something is missing. -/
def isMissing : SettingsFault → Bool
  | missing _ | noServer _ => true
  | _ => false

def message : SettingsFault → String
  | missing names =>
      "Missing configuration for: " ++
        ", ".intercalate (names.mergeSort fun first second => first ≤ second)
  | notInteger name raw => name ++ " must be an integer, got " ++ quoted raw
  | notNumber name raw => name ++ " must be a number, got " ++ quoted raw
  | tooSmall name least found => name ++ " must be >= " ++ least.text ++ ", got " ++ found.text
  | tooFewWorkers found => "workers must be >= 1, got " ++ intText found
  | backoffBaseNotPositive => "backoff base must be positive"
  | backoffLimitBelowBase => "backoff max must not be smaller than the base"
  | resyncNotPositive => "resync period must be positive"
  | tooFewAttempts => "task max attempts must be >= 1"
  | noCredentials path => "Credentials file not found: " ++ path
  | malformedCredentials => "Invalid credentials file"
  | noServer path => "Missing configuration for: server (" ++ path ++ ")"
  | tokenNotText => "token must be a string"
  | namespaceNotText => "namespace must be a non-empty string"
  | timeoutNotPositive => "timeout_seconds must be a positive number"
  | verificationUnknown => "verify must be a boolean or a CA bundle path"
  | rateNotPositive => "requests_per_second must be a positive integer"

end SettingsFault

/-- A condition that the reading of settings does not foresee. -/
inductive SettingsUpset where
  /-- A file that is not UTF-8. -/
  | notUtf8
  /-- A file with a whole number of too many digits. -/
  | longInteger (digits : Nat)
  /-- A file that is nested deeper than can be read. -/
  | tooDeep
  /-- A whole number beyond the range of floats. -/
  | outOfRange
  /-- A home folder that cannot be determined. -/
  | noHome
  deriving Repr, DecidableEq

/-- The wording of an unforeseen condition, if it has one. -/
def SettingsUpset.message? : SettingsUpset → Option String
  | notUtf8 | tooDeep | outOfRange => none
  | longInteger digits => some (Decimal.tooLongMessage digits)
  | noHome => some "Could not determine home directory."

/-- Anything that can go wrong with settings. -/
inductive SettingsTrouble where
  | fault (cause : SettingsFault)
  | upset (cause : SettingsUpset)

end OneShot
