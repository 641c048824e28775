import RemoteObjects.Transport.Framing

/-!
# One connection for many calls

A line to a server keeps at most one connection.  Calls wait for each other: the first in the queue
takes the kept connection, or opens one, and sends its request over it; only when its reply has
been read is the connection kept for the next call.  A call that fails, or is given up while it has
the connection, takes the connection with it, so no reply can come to a call that did not ask for
it.

A line changes in steps, each of which one event of a call brings about; steps of different calls
may come in any order that the queue permits.
-/

namespace RemoteObjects.Tcp

open Transport (Error maxFrame)

structure Call where
  id : Nat
  payload : ByteArray

/-- How far the call has come whose turn it is.  Connections are numbered as they are opened. -/
inductive Phase where
  | connecting
  | writing (connection : Nat)
  | reading (connection : Nat)
  deriving DecidableEq

structure Line where
  /-- The connection that waits for the next call. -/
  kept : Option Nat
  /-- The calls that wait for their turn, the next one first. -/
  waiting : List Call
  active : Option (Call × Phase)
  /-- How many connections were opened. -/
  opened : Nat

inductive Event where
  /-- A call is made. -/
  | issue (call : Call)
  /-- The next call in the queue gets its turn. -/
  | acquire
  | connected
  | written
  | replied (reply : ByteArray)
  /-- Connecting, writing or reading fails or takes too long. -/
  | failed (e : Error)
  /-- Whoever made the call does not wait any longer. -/
  | abandoned (id : Nat)

/-- A call that is over, and what it answers. -/
abbrev Ended : Type := Nat × Except Error ByteArray

namespace Line

def idle : Line := ⟨none, [], none, 0⟩

/-- The line after an event and the call that the event ends, if the event can happen. -/
def step? (l : Line) : Event → Option (Line × Option Ended)
  | .issue call =>
    if maxFrame < call.payload.size then
      some (l, some (call.id, .error (.payloadTooLarge call.payload.size)))
    else some ({ l with waiting := l.waiting ++ [call] }, none)
  | .acquire =>
    match l.active, l.waiting with
    | none, call :: waiting =>
      let phase := match l.kept with
        | some connection => .writing connection
        | none => .connecting
      some ({ l with kept := none, waiting := waiting, active := some (call, phase) }, none)
    | _, _ => none
  | .connected =>
    match l.active with
    | some (call, .connecting) =>
      some ({ l with active := some (call, .writing l.opened), opened := l.opened + 1 }, none)
    | _ => none
  | .written =>
    match l.active with
    | some (call, .writing connection) =>
      some ({ l with active := some (call, .reading connection) }, none)
    | _ => none
  | .replied reply =>
    match l.active with
    | some (call, .reading connection) =>
      some ({ l with kept := some connection, active := none }, some (call.id, .ok reply))
    | _ => none
  | .failed e =>
    match l.active with
    | some (call, _) => some ({ l with active := none }, some (call.id, .error e))
    | none => none
  | .abandoned id =>
    match l.active with
    | some (call, phase) =>
      if call.id = id then some ({ l with active := none }, none)
      else
        let waiting := l.waiting.filter (·.id ≠ id)
        some ({ l with waiting := waiting, active := some (call, phase) }, none)
    | none => some ({ l with waiting := l.waiting.filter (·.id ≠ id) }, none)

/-- What follows a series of events, and the calls that they end; events that cannot happen are
passed over. -/
def run (l : Line) : List Event → Line × List Ended
  | [] => (l, [])
  | event :: rest =>
    match l.step? event with
    | none => l.run rest
    | some (next, ended) =>
      let (last, more) := next.run rest
      (last, ended.toList ++ more)

end Line

/-- How a network treats a call: whether a connection can be opened, and what comes back over a
connection. -/
structure Network where
  connect : Except Error Unit
  exchange : (connection : Nat) → ByteArray → Except Error ByteArray

namespace Line

/-- The events of a call whose turn it is. -/
def turn (network : Network) (l : Line) (payload : ByteArray) : List Event :=
  let exchange (connection : Nat) : List Event :=
    match network.exchange connection payload with
    | .ok reply => [.written, .replied reply]
    | .error e => [.failed e]
  match l.kept, network.connect with
  | some connection, _ => exchange connection
  | none, .ok () => .connected :: exchange l.opened
  | none, .error e => [.failed e]

/-- A call that nobody interferes with. -/
def call (network : Network) (payload : ByteArray) (l : Line) : Except Error ByteArray × Line :=
  let (next, ended) := l.run (.issue ⟨0, payload⟩ :: .acquire :: l.turn network payload)
  match ended with
  | [(_, result)] => (result, next)
  | _ => (.error (.io "call did not end"), next)

end Line

end RemoteObjects.Tcp
