import RemoteObjects.MethodTable
import RemoteObjects.Proxy.Descriptor
import RemoteObjects.Proxy.Error
import RemoteObjects.Proxy.Surroundings
import RemoteObjects.Text.Quoted
import RemoteObjects.Wire.Codec

/-!
# Proxies

A proxy stands for one object on a server.  It is there before the object is: the creation runs in
the background, and whoever needs the object waits for its end first.  A creation that failed is
never tried again, and its failure is what every later call reports.  Calls of methods outside the
table fail before anything else happens.
-/

namespace RemoteObjects

structure Proxy (κ ℓ : Type) where
  methods : MethodTable
  objectId : ObjectId
  addr : ServerAddr
  link : κ
  codec : Codec
  /-- The number of the creation; none if the object was there already. -/
  creation : Option Nat
  attachedOnly : Bool
  /-- The launcher of the server, if it was launched for this proxy. -/
  launcher : Option ℓ

namespace Proxy

/-- How far the object has come. -/
inductive State where
  | creating
  | ready
  | failed
  deriving DecidableEq

def State.name : State → String
  | .creating => "Creating"
  | .ready => "Ready"
  | .failed => "Failed"

/-- A method of one proxy, found to be public.  It is as good as the proxy itself. -/
structure Method (κ ℓ : Type) where
  proxy : Proxy κ ℓ
  name : String

variable {m : Type → Type} [Monad m] [Effects m] {κ ℓ : Type}

def objectType (p : Proxy κ ℓ) : String := p.methods.typeName

def descriptor (p : Proxy κ ℓ) : Descriptor := ⟨p.objectType, p.objectId, p.addr⟩

/-- Another proxy for the same object, which does not own the server. -/
def clone (p : Proxy κ ℓ) : Proxy κ ℓ := { p with attachedOnly := true, launcher := none }

/-! ## The creation -/

/-- Why a creation failed, if it did. -/
def Settled.cause? (creation : Nat) : Settled → Option Client.Error
  | .finished (.ok ()) => none
  | .finished (.error e) => some e
  | .crashed reason =>
    some (.internal ("creation task failed: task " ++ toString creation ++
      " panicked with message " ++ quoted reason))

/-- What the end of its creation means for a proxy.  The first look at it is reported. -/
def look (s : Surroundings m κ ℓ) (p : Proxy κ ℓ) (creation : Nat) (settled : Settled) :
    m (Except Error Unit) := do
  let cause? := settled.cause? creation
  let fields := [("object_id", p.objectId.text), ("addr", p.addr.display)]
  if ← s.firstLook creation then
    match cause? with
    | none => Effects.log ⟨.info, "remote instance created", fields⟩
    | some cause =>
      Effects.log ⟨.warn, "remote instance creation failed", fields ++ [("error", cause.message)]⟩
  return match cause? with
    | none => .ok ()
    | some cause => .error (.creation p.objectId p.addr cause)

/-- Waits until the object is there. -/
def waitReady (s : Surroundings m κ ℓ) (p : Proxy κ ℓ) : m (Except Error Unit) :=
  match p.creation with
  | none => return .ok ()
  | some creation => do p.look s creation (← s.join creation)

def state (s : Surroundings m κ ℓ) (p : Proxy κ ℓ) : m State :=
  match p.creation with
  | none => return .ready
  | some creation => do
    match ← s.poll creation with
    | none => return .creating
    | some settled =>
      match ← p.look s creation settled with
      | .ok () => return .ready
      | .error _ => return .failed

/-! ## Calls -/

/-- What a reply to a call means. -/
def answerOf (codec : Codec) (reply : Except Client.Error ByteArray) : Except Error Json.Value := do
  let payload ← reply.mapError .ofClient
  let outcome ← (codec.decodeOutcome payload).mapError .codec
  outcome.mapError .remote

/-- Calls a method of the object. -/
def invoke (s : Surroundings m κ ℓ) (p : Proxy κ ℓ) (method : String) (args : CallArgs) :
    m (Except Error Json.Value) := do
  if !p.methods.contains method then return .error (.invalidMethod p.objectType method)
  match ← p.waitReady s with
  | .error e => return .error e
  | .ok () =>
    match p.codec.encodeArgs args with
    | .error e => return .error (.codec e)
    | .ok payload =>
      let reply ← (s.client p.link).call p.objectId method payload
      return answerOf p.codec reply

/-- Reads data from the value that a call returned. -/
def dataOf {α : Type} (decode : Json.Decoder α) (result : Except Error Json.Value) :
    Except Error α := do
  let v ← result
  (v.decode decode).mapError fun cause ↦ .codec (.decode cause.message)

/-- The method of that name, if it is public. -/
def method (p : Proxy κ ℓ) (name : String) : Except Error (Method κ ℓ) :=
  if p.methods.contains name then .ok ⟨p, name⟩
  else .error (.invalidMethod p.objectType name)

def Method.call (s : Surroundings m κ ℓ) (f : Method κ ℓ) (args : CallArgs) :
    m (Except Error Json.Value) :=
  f.proxy.invoke s f.name args

/-! ## The server -/

/-- Whether the proxy launched its server and has not stopped it. -/
def ownsServer (s : Surroundings m κ ℓ) (p : Proxy κ ℓ) : m Bool :=
  match p.launcher with
  | none => return false
  | some launcher => s.held launcher

/-- Stops the server if the proxy launched it and has not stopped it before. -/
def stop (s : Surroundings m κ ℓ) (p : Proxy κ ℓ) : m Unit :=
  match p.launcher with
  | none => return ()
  | some launcher => do
    if ← s.release launcher then
      let fields := [("object_id", p.objectId.text), ("addr", p.addr.display)]
      match ← s.shutdown launcher with
      | .ok () => Effects.log ⟨.info, "owned server stopped", fields⟩
      | .error e =>
        Effects.log ⟨.warn, "failed to stop owned server", fields ++ [("error", e.message)]⟩

/-! ## Texts -/

/-- A proxy as messages show it. -/
def debug (s : Surroundings m κ ℓ) (p : Proxy κ ℓ) : m String := do
  let owns ← p.ownsServer s
  let state ← p.state s
  return "RemoteObjectProxy \x7b object_type: " ++ quoted p.objectType ++
    ", object_id: ObjectId(" ++ quoted p.objectId.text ++
    "), addr: ServerAddr \x7b host: " ++ quoted p.addr.host ++
    ", port: " ++ toString p.addr.port.toNat ++
    " \x7d, attached_only: " ++ toString p.attachedOnly ++
    ", owns_server: " ++ toString owns ++ ", state: " ++ state.name ++ " \x7d"

def Method.debug (f : Method κ ℓ) : String :=
  "RemoteMethod \x7b object_id: ObjectId(" ++ quoted f.proxy.objectId.text ++
    "), name: " ++ quoted f.name ++ " \x7d"

end Proxy

end RemoteObjects
