import RemoteObjects.Retry.Loop
import RemoteObjects.Transport.Error
import RemoteObjects.Wire.Error
import RemoteObjects.Wire.Outcome

/-!
# Failures of a client
-/

namespace RemoteObjects.Client

inductive Error where
  | transport (e : Transport.Error)
  | wire (e : Wire.Error)
  /-- The server answered with a fault. -/
  | remote (f : RemoteFault)
  /-- The server answered with something that does not fit the request. -/
  | protocol (reason : String)
  | retriesExhausted (attempts : UInt32) (last : Error)
  | internal (reason : String)

namespace Error

/-- Whether another attempt could succeed, which only holds of failures of the network. -/
def isTransient : Error → Bool
  | .transport _ => true
  | _ => false

def message : Error → String
  | .transport e => "Transport error: " ++ e.message
  | .wire e => "Wire error: " ++ e.message
  | .remote f => "Remote failure: " ++ f.display
  | .protocol reason => "Protocol violation: " ++ reason
  | .retriesExhausted attempts last =>
    "Retries exhausted after " ++ toString attempts.toNat ++ " attempts: " ++ last.message
  | .internal reason => "Internal client error: " ++ reason

instance : ToString Error := ⟨message⟩

/-- The messages of what is behind a failure, the nearest first. -/
def sources : Error → List String
  | .transport e => [e.message]
  | .wire e => [e.message]
  | .remote f => [f.display]
  | .retriesExhausted _ last => last.message :: last.sources
  | .protocol _ | .internal _ => []

def ofRetry : RetryError Error → Error
  | .exhausted attempts last => .retriesExhausted attempts last
  | .aborted e => e

end Error

end RemoteObjects.Client
