import OneShot.Assoc
import OneShot.Broadcast
import OneShot.Resource.Object

/-!
# Scripted handlers

Handlers of changes that note what they are told, and may then subscribe
others, take subscriptions back, or publish a change of their own.
-/

namespace OneShot.Simulation

/-- What a handler does with a change, in this order. -/
structure HandlerScript where
  subscribes : Option String := none
  /-- The subscription that is taken back, by its number. -/
  unsubscribes : Option Nat := none
  /-- The key that a further change is published for. -/
  republishes : Option ObjectKey := none

/-- Handlers by name, and what became of them. -/
structure Gathering where
  scripts : List (String × HandlerScript)
  broadcast : Broadcast String := {}
  /-- The handlers of all subscriptions that were ever made, in order. -/
  subscriptions : List String := []
  notes : List String := []

namespace Gathering

def subscribe (gathering : Gathering) (handler : String) : Gathering :=
  { gathering with
    broadcast := gathering.broadcast.subscribe handler
    subscriptions := gathering.subscriptions ++ [handler] }

/-- Take a subscription back; none if there never was one of that number. -/
def unsubscribe? (gathering : Gathering) (number : Nat) : Option Gathering :=
  gathering.subscriptions[number]?.map fun handler =>
    { gathering with broadcast := gathering.broadcast.unsubscribe handler }

def note (gathering : Gathering) (handler : String) (key : ObjectKey) : Gathering :=
  { gathering with notes := gathering.notes ++ [handler ++ ":" ++ key.text] }

/-- Deliver a change to a handler.  A handler that fails does no more; the
depth bounds the changes published from within. -/
def deliver : (depth : Nat) → String → ObjectKey → Gathering → Gathering
  | 0, _, _, gathering => gathering
  | depth + 1, handler, key, gathering =>
      let gathering := gathering.note handler key
      let script := (Assoc.get? gathering.scripts handler).getD {}
      let gathering := (script.subscribes.map gathering.subscribe).getD gathering
      let after :=
        match script.unsubscribes with
        | none => some gathering
        | some number => gathering.unsubscribe? number
      match after, script.republishes with
      | none, _ => gathering
      | some gathering, none => gathering
      | some gathering, some next =>
          if next = key then gathering
          else gathering.broadcast.publish (deliver depth) next gathering

def deepest : Nat := 64

def publish (gathering : Gathering) (keys : List ObjectKey) : Gathering :=
  keys.foldl
    (fun gathering key => gathering.broadcast.publish (deliver deepest) key gathering) gathering

end Gathering

end OneShot.Simulation
