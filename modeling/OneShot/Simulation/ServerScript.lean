import OneShot.Http.Retry
import OneShot.Simulation.Script

/-!
# Scripts of servers

How the answers of a server, and the policy of those who ask it, are described
in the script of a simulation.
-/

namespace OneShot.Script

open OneShot.Http

def headers (value : Json) : List (String × String) :=
  value.members.map fun header => (header.1, header.2.text)

/-- The answer of a server, given what the names of troubles stand for. -/
def serverAnswer (trouble : String → TroubleKind) (value : Json) : Answer :=
  let status := (value.integerOr "status" 200).toNat
  let headers := headers (value.member "headers")
  match (value.member "error").text? with
  | some name => .trouble ⟨trouble name, value.textOr "message" ""⟩
  | none =>
      if value.flagOr "hang" false then .silence
      else if value.has "json" then .response (.ofJson status (value.member "json") headers)
      else if value.has "hex" then
        .response ⟨status, headers, Text.ofHex (value.member "hex").text⟩
      else .response (.ofText status (value.textOr "text" "") headers)

/-- A policy, as far as it differs from another one. -/
def retryPolicy (value : Json) (usual : RetryPolicy) : RetryPolicy :=
  { total := value.integerOr "total" usual.total
    backoffFactor := value.numberOr "backoff_factor" usual.backoffFactor
    longestPause := value.numberOr "max_backoff_wait" usual.longestPause
    jitter := value.numberOr "backoff_jitter" usual.jitter
    respectsRetryAfter := value.flagOr "respect_retry_after_header" usual.respectsRetryAfter
    methods :=
      if value.has "allowed_methods" then (value.member "allowed_methods").items.map Json.text
      else usual.methods
    statuses :=
      if value.has "status_forcelist" then
        (value.member "status_forcelist").items.map (·.integer.toNat)
      else usual.statuses }

end OneShot.Script
