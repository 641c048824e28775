import RemoteObjects.Client
import RemoteObjects.Transport
import RemoteObjects.Wire.Frame

/-!
# Clients over a transport

Each operation is one request and the response to it.  A fault frame is the server's own refusal; a
response of another kind than the expected one violates the protocol.
-/

namespace RemoteObjects.Client

/-- The response that a reply holds. -/
def responseOf (reply : Except Transport.Error ByteArray) : Except Error Response := do
  let bytes ← reply.mapError .transport
  (Response.decode bytes).mapError .wire

/-- Refuses a response that does not fit the request. -/
def unexpected {α : Type} (expected : String) (r : Response) : Except Error α :=
  .error (.protocol ("expected `" ++ expected ++ "`, received `" ++ r.kind ++ "`"))

/-- What a response to a creation means. -/
def created : Response → Except Error Unit
  | .created => .ok ()
  | .fault f => .error (.remote f)
  | r => unexpected "created" r

/-- What a response to a call means. -/
def returned : Response → Except Error ByteArray
  | .returned payload => .ok payload
  | .fault f => .error (.remote f)
  | r => unexpected "returned" r

variable {m : Type → Type} [Monad m] [Effects m]

/-- What the reply to a probe means; only a pong shows a server alive. -/
def alive : Option (Except Error Response) → m Bool
  | some (.ok .pong) => return true
  | some (.ok r) => do
    Effects.log ⟨.debug, "unexpected probe reply", [("received", r.kind)]⟩
    return false
  | some (.error e) => do
    Effects.log ⟨.debug, "probe failed", [("error", e.message)]⟩
    return false
  | none => return false

/-- The client that sends its requests over a transport and waits `probe` for a sign of life. -/
def framed (t : Transport m) (probe : Duration) : Client m where
  create objectType args objectId := do
    let reply ← t.call (Request.create objectType objectId args).encode
    return responseOf reply >>= created
  call objectId method payload := do
    let reply ← t.call (Request.call objectId method payload).encode
    return responseOf reply >>= returned
  reachable := do
    let reply ← t.callWithin probe Request.ping.encode
    alive (reply.map responseOf)

end RemoteObjects.Client
