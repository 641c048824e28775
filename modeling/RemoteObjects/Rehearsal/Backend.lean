import RemoteObjects.Client.Framed
import RemoteObjects.Client.Retrying
import RemoteObjects.Pool
import RemoteObjects.Rehearsal.CounterServer
import RemoteObjects.Rehearsal.World

/-!
# A backend that counts

All addresses lead to the same counters, and whatever is asked of the backend is counted.  Whether a
server is alive is all that its address decides.
-/

namespace RemoteObjects.Rehearsal

/-- How a launcher of the backend behaves. -/
structure BackendLauncher where
  port : UInt16
  failShutdown : Bool

structure Backend where
  createDelay : Duration
  failing : Bool
  down : List ServerAddr
  /-- Servers that went down during the rehearsal, unless that was forgotten. -/
  noted : List ServerAddr
  counters : List (ObjectId × Int64)
  creates : Nat
  calls : Nat
  probes : Nat
  /-- The addresses that links were made to, the last one first. -/
  connected : List ServerAddr
  /-- What servers were launched with, the last one first. -/
  configs : List LaunchConfig
  shutdowns : Nat
  pool : ServerPool
  launchers : List BackendLauncher

namespace Backend

def start (createDelay : Duration) (failing : Bool) (down pool : List ServerAddr) : Backend where
  createDelay := createDelay
  failing := failing
  down := down
  noted := []
  counters := []
  creates := 0
  calls := 0
  probes := 0
  connected := []
  configs := []
  shutdowns := 0
  pool := .ofList pool
  launchers := []

def takeDown (b : Backend) (addr : ServerAddr) : Backend :=
  { b with down := addr :: b.down, noted := addr :: b.noted }

/-- Forgets that a server went down, and says whether that was noted; the server stays down. -/
def forgetDown (b : Backend) (addr : ServerAddr) : Bool × Backend :=
  (addr ∈ b.noted, { b with noted := b.noted.filter (· ≠ addr) })

def set (b : Backend) (objectId : ObjectId) (n : Int64) : Backend :=
  { b with counters := (objectId, n) :: b.counters.filter (·.1 ≠ objectId) }

/-- Creates a counter, or resets the one that is there. -/
def create (objectType : String) (args : ByteArray) (objectId : ObjectId) (b : Backend) :
    Except Client.Error Unit × Backend :=
  if b.failing then
    (.error (.remote ⟨"CreationError", "cannot construct " ++ objectType⟩), b)
  else match Codec.json.decodeArgs args with
    | .error e => (.error (.wire e), b)
    | .ok args => (.ok (), b.set objectId (startOf args))

/-- Calls a method; there is no answer if a counter would leave its 64 bits. -/
def call (objectId : ObjectId) (method : String) (payload : ByteArray) (b : Backend) :
    Option (Except Client.Error ByteArray) × Backend :=
  let b := { b with calls := b.calls + 1 }
  match b.counters.lookup objectId with
  | none => (some (.error (.remote ⟨"NotFound", "no object " ++ objectId.text⟩)), b)
  | some n =>
    match Codec.json.decodeArgs payload with
    | .error e => (some (.error (.wire e)), b)
    | .ok args =>
      let answer (outcome : Outcome) : Option (Except Client.Error ByteArray) :=
        some (.ok (Wire.encodeTree outcome.tree))
      match method with
      | "increment" =>
        match addChecked n (amountOf args) with
        | some n => (answer (.ok (.ofInt64 n)), b.set objectId n)
        | none => (none, b)
      | "get" => (answer (.ok (.ofInt64 n)), b)
      | "fail" => (answer (.error ⟨"ValueError", "asked to fail"⟩), b)
      | _ => (answer (.error ⟨"AttributeError", method⟩), b)

def client (addr : ServerAddr) : Client (Task (World Backend)) where
  create objectType args objectId := do
    let delay ← World.onScene fun b ↦ (b.createDelay, { b with creates := b.creates + 1 })
    if delay.nanos ≠ 0 then Effects.sleep delay
    World.onScene (create objectType args objectId)
  call objectId method payload := do
    let some answer ← World.onScene (call objectId method payload)
      | Effects.crash "attempt to add with overflow"
    return answer
  reachable := World.onScene fun b ↦ (addr ∉ b.down, { b with probes := b.probes + 1 })

def launch (launcher : Nat) (config : LaunchConfig) (b : Backend) :
    Except Launch.Error UInt16 × Backend :=
  let port := config.port.getD ((b.launchers[launcher]?.map (·.port)).getD 0)
  (.ok port, { b with configs := config :: b.configs })

def shutdown (launcher : Nat) (b : Backend) : Except Launch.Error Unit × Backend :=
  let fails := (b.launchers[launcher]?.map (·.failShutdown)).getD false
  (if fails then .error (.shutdown "process refused to die") else .ok (),
    { b with shutdowns := b.shutdowns + 1 })

def cast : Cast Backend where
  connect addr b := { b with connected := addr :: b.connected }
  client := client
  discover b :=
    let (addr, pool) := b.pool.allocate
    (addr, { b with pool := pool })
  launch := launch
  shutdown := shutdown

end Backend

end RemoteObjects.Rehearsal
