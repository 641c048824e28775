import RemoteObjects.Rehearsal.World
import RemoteObjects.Tcp.Line
import RemoteObjects.Transport

/-!
# A network out of order

No connection can be opened.
-/

namespace RemoteObjects.Rehearsal

def unreachable : Tcp.Network where
  connect :=
    .error (.ofFault (.other "network unreachable") "Network is unreachable (os error 101)")
  exchange _ _ :=
    .error (.ofFault .notConnected "Transport endpoint is not connected (os error 107)")

/-- Calls over a line of this network, which never take time. -/
def unreachableTransport : Transport (Task (World Tcp.Line)) where
  call payload := World.onScene (Tcp.Line.call unreachable payload)
  callWithin _ payload := return some (← World.onScene (Tcp.Line.call unreachable payload))

end RemoteObjects.Rehearsal
