import RemoteObjects.Rehearsal.World
import RemoteObjects.Transport
import RemoteObjects.Wire.Frame

/-!
# Transports with one answer

One transport fails a number of times before it gives its answer; another answers whatever it is
given, well-formed or not.
-/

namespace RemoteObjects.Rehearsal

structure Flaky where
  failures : Nat
  attempts : Nat
  response : Response

namespace Flaky

/-- One exchange.  A payload that is no request uses up no failure. -/
def call (payload : ByteArray) (f : Flaky) : Except Transport.Error ByteArray × Flaky :=
  let f := { f with attempts := f.attempts + 1 }
  match Request.decode payload with
  | .error e => (.error (.io ("bad request: " ++ e.message)), f)
  | .ok _ =>
    match f.failures with
    | 0 => (.ok f.response.encode, f)
    | failures + 1 => (.error (.connectionLost "reset by peer"), { f with failures := failures })

def transport : Transport (Task (World Flaky)) where
  call payload := World.onScene (call payload)
  callWithin _ payload := return some (← World.onScene (call payload))

end Flaky

/-- The transport that always answers the same bytes. -/
def constantTransport {m : Type → Type} [Monad m] (reply : ByteArray) : Transport m where
  call _ := return .ok reply
  callWithin _ _ := return some (.ok reply)

end RemoteObjects.Rehearsal
