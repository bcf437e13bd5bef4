/-!
# Faults of payloads

What is wrong with a payload, and where: a path of member names and indices
from the root, and the kind of fault at its end.
-/

namespace OneShot.Wire

/-- A step from a value into one of its parts. -/
inductive Step where
  | member (name : String)
  | index (position : Nat)
  deriving Repr, DecidableEq

/-- The kinds of faults. -/
inductive FaultKind where
  | missing
  | notModel
  | notList
  | notMap
  | notString
  | notTruthValue
  | unreadableTruthValue
  | notInteger
  | unreadableInteger
  | fractionalInteger
  | integerSize
  | notMoment
  | unreadableMoment
  | unreadableCount
  | notFinite
  deriving Repr, DecidableEq

/-- A fault in a payload. -/
structure Fault where
  path : List Step
  kind : FaultKind
  deriving Repr, DecidableEq

end OneShot.Wire
