/-!
# Subscriptions

Changes are told to every handler that has subscribed, in the order of the
subscriptions.  A handler may subscribe several times; each subscription can be
taken back, which removes the first subscription of that handler that is still
there.
-/

namespace OneShot

/-- The handlers that have subscribed, in order. -/
structure Broadcast (η : Type) where
  handlers : List η := []

namespace Broadcast

variable {η : Type} [DecidableEq η]

def subscribe (broadcast : Broadcast η) (handler : η) : Broadcast η :=
  ⟨broadcast.handlers ++ [handler]⟩

/-- Take a subscription of a handler back, if one is left. -/
def unsubscribe (broadcast : Broadcast η) (handler : η) : Broadcast η :=
  ⟨broadcast.handlers.erase handler⟩

/-- Tell an event to the handlers that have subscribed when it is published. -/
def publish {ε σ : Type} (broadcast : Broadcast η) (deliver : η → ε → σ → σ) (event : ε)
    (state : σ) : σ :=
  broadcast.handlers.foldl (fun state handler => deliver handler event state) state

end Broadcast

end OneShot
