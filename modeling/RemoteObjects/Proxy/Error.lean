import RemoteObjects.Client.Error
import RemoteObjects.Handle
import RemoteObjects.Launch.Error

/-!
# Failures of a proxy
-/

namespace RemoteObjects.Proxy

inductive Error where
  /-- The method is not one of the public methods of the type. -/
  | invalidMethod (objectType method : String)
  /-- The object could not be created. -/
  | creation (objectId : ObjectId) (addr : ServerAddr) (cause : Client.Error)
  | unreachableServer (addr : ServerAddr)
  /-- There is no address, no usable discovered server and no launcher. -/
  | noServer
  | launch (e : Launch.Error)
  | client (e : Client.Error)
  /-- The remote object, or its server, answered the call with a fault. -/
  | remote (f : RemoteFault)
  | codec (e : Wire.Error)
  | config (reason : String)
  /-- A descriptor names another type than the wanted one. -/
  | typeMismatch (expected found : String)

namespace Error

/-- Whether a retry policy ran out of attempts. -/
def isRetriesExhausted : Error → Bool
  | .client (.retriesExhausted _ _) | .creation _ _ (.retriesExhausted _ _) => true
  | _ => false

def message : Error → String
  | .invalidMethod objectType method =>
    "Method `" ++ method ++ "` is not callable on `" ++ objectType ++ "`"
  | .creation objectId addr cause =>
    "Failed to create object " ++ objectId.text ++ " on " ++ addr.display ++ ": " ++ cause.message
  | .unreachableServer addr => "Server " ++ addr.display ++ " is unreachable"
  | .noServer => "No server address, discovery result or launcher available"
  | .launch e => "Launch error: " ++ e.message
  | .client e => "Client error: " ++ e.message
  | .remote f => "Remote call failed: " ++ f.display
  | .codec e => "Codec error: " ++ e.message
  | .config reason => "Configuration error: " ++ reason
  | .typeMismatch expected found =>
    "Type mismatch: expected `" ++ expected ++ "`, found `" ++ found ++ "`"

/-- The messages of what is behind a failure, the nearest first. -/
def sources : Error → List String
  | .creation _ _ cause => cause.message :: cause.sources
  | .launch e => [e.message]
  | .client e => e.message :: e.sources
  | .remote f => [f.display]
  | .codec e => [e.message]
  | .invalidMethod _ _ | .unreachableServer _ | .noServer | .config _ | .typeMismatch _ _ => []

/-- The failure of a call; a fault is the same whether the object or its server reports it. -/
def ofClient : Client.Error → Error
  | .remote f => .remote f
  | e => .client e

end Error

end RemoteObjects.Proxy
