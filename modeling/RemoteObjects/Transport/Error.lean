/-!
# Failures of a transport
-/

namespace RemoteObjects.Transport

inductive Error where
  /-- The peer is out of reach, or the connection broke. -/
  | connectionLost (reason : String)
  /-- No reply came in time. -/
  | timeout
  | payloadTooLarge (size : Nat)
  | io (reason : String)
  deriving DecidableEq

def Error.message : Error → String
  | .connectionLost reason => "Connection lost: " ++ reason
  | .timeout => "Request timed out"
  | .payloadTooLarge size =>
    "Payload of " ++ toString size ++ " bytes too large for transport"
  | .io reason => "I/O error: " ++ reason

/-- What may go wrong with a stream; whatever needs no name of its own has a description. -/
inductive Fault where
  | connectionRefused
  | connectionReset
  | connectionAborted
  | notConnected
  | brokenPipe
  | unexpectedEnd
  | timedOut
  | interrupted
  | other (description : String)
  deriving DecidableEq

def Fault.description : Fault → String
  | .connectionRefused => "connection refused"
  | .connectionReset => "connection reset"
  | .connectionAborted => "connection aborted"
  | .notConnected => "not connected"
  | .brokenPipe => "broken pipe"
  | .unexpectedEnd => "unexpected end of file"
  | .timedOut => "timed out"
  | .interrupted => "operation interrupted"
  | .other description => description

/-- The fault of a name; names that stand for none mean any other. -/
def Fault.ofName : String → Fault
  | "ConnectionRefused" => .connectionRefused
  | "ConnectionReset" => .connectionReset
  | "ConnectionAborted" => .connectionAborted
  | "NotConnected" => .notConnected
  | "BrokenPipe" => .brokenPipe
  | "UnexpectedEof" => .unexpectedEnd
  | "TimedOut" => .timedOut
  | "Interrupted" => .interrupted
  | "NotFound" => .other "entity not found"
  | "PermissionDenied" => .other "permission denied"
  | "HostUnreachable" => .other "host unreachable"
  | "NetworkUnreachable" => .other "network unreachable"
  | "NetworkDown" => .other "network down"
  | "AddrInUse" => .other "address in use"
  | "AddrNotAvailable" => .other "address not available"
  | "AlreadyExists" => .other "entity already exists"
  | "WouldBlock" => .other "operation would block"
  | "InvalidInput" => .other "invalid input parameter"
  | "InvalidData" => .other "invalid data"
  | "WriteZero" => .other "write zero"
  | "Unsupported" => .other "unsupported"
  | "OutOfMemory" => .other "out of memory"
  | _ => .other "other error"

/-- The failure that a fault of a stream amounts to. -/
def Error.ofFault (fault : Fault) (reason : String) : Error :=
  match fault with
  | .connectionRefused | .connectionReset | .connectionAborted | .notConnected | .brokenPipe
  | .unexpectedEnd => .connectionLost reason
  | .timedOut => .timeout
  | .interrupted | .other _ => .io reason

end RemoteObjects.Transport
