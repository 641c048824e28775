import RemoteObjects.Client

/-!
# Clients that try again

Creations and calls are repeated while the network fails; every other failure is passed on as it
is.  Probes are not repeated.
-/

namespace RemoteObjects.Client

variable {m : Type → Type} [Monad m] [Effects m]

/-- Repeats an operation while the network fails. -/
def persist {α : Type} (policy : RetryPolicy) (op : m (Except Error α)) : m (Except Error α) := do
  return (← policy.retryIf Error.isTransient op).mapError .ofRetry

def retrying (inner : Client m) (policy : RetryPolicy) : Client m where
  create objectType args objectId := persist policy (inner.create objectType args objectId)
  call objectId method payload := persist policy (inner.call objectId method payload)
  reachable := inner.reachable

/-- The client that tries again if there is a policy. -/
def maybeRetrying (inner : Client m) (policy : Option RetryPolicy) : Client m :=
  policy.elim inner inner.retrying

end RemoteObjects.Client
