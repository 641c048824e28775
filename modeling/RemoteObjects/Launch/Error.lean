/-!
# Failures of a launcher
-/

namespace RemoteObjects.Launch

inductive Error where
  /-- The server program could not be started. -/
  | spawn (reason : String)
  | noFreePort (reason : String)
  /-- The server ended before it listened. -/
  | exited (status : String)
  /-- The server did not accept connections in time. -/
  | startupTimeout (port : UInt16) (waitedMs : UInt64)
  /-- The launcher runs a server already. -/
  | alreadyRunning
  | shutdown (reason : String)
  deriving DecidableEq

def Error.message : Error → String
  | .spawn reason => "Failed to spawn server: " ++ reason
  | .noFreePort reason => "No free port available: " ++ reason
  | .exited status => "Server exited during startup: " ++ status
  | .startupTimeout port waitedMs =>
    "Server on port " ++ toString port.toNat ++ " not ready after " ++ toString waitedMs.toNat ++
      " ms"
  | .alreadyRunning => "Launcher already runs a server"
  | .shutdown reason => "Failed to stop server: " ++ reason

end RemoteObjects.Launch
