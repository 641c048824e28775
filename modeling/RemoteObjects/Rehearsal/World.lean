import RemoteObjects.Entropy
import RemoteObjects.Proxy
import RemoteObjects.Rehearsal.Clock

/-!
# A world to rehearse proxies in

The world keeps what all rehearsals need: the log, the creations in the background, and which
launchers have left the hands of their proxies.  What else there is, the servers above all, is the
scene.
-/

namespace RemoteObjects.Rehearsal

open Proxy (Creation Settled Surroundings)

structure World (ς : Type) where
  scene : ς
  /-- The events reported so far, the last one first. -/
  log : List Event
  /-- How many creations were asked for. -/
  creations : Nat
  /-- Creations that have not started, the last one first. -/
  requests : List (Nat × Creation ServerAddr)
  settled : List (Nat × Settled)
  /-- The creations whose end somebody has looked at. -/
  looked : List Nat
  /-- The launchers that their proxies have given up. -/
  released : List Nat
  /-- Where identifiers are drawn from. -/
  entropy : Entropy

variable {ς : Type}

namespace World

def start (scene : ς) : World ς := ⟨scene, [], 0, [], [], [], [], .start⟩

instance : Logging (World ς) where
  record e w := { w with log := e :: w.log }

/-- Computes an answer and the next scene from the scene. -/
def onScene {α : Type} (f : ς → α × ς) : Task (World ς) α :=
  .modifyGet fun w ↦ let (a, scene) := f w.scene; (a, { w with scene := scene })

def changeScene (f : ς → ς) : Task (World ς) Unit :=
  .modify fun w ↦ { w with scene := f w.scene }

/-- Puts a number on a list; whether it was new. -/
def mark (n : Nat) (marked : List Nat) : Bool × List Nat :=
  if n ∈ marked then (false, marked) else (true, n :: marked)

end World

/-- How the servers, launchers and pools of a scene behave. -/
structure Cast (ς : Type) where
  /-- Notes that a link to a server was made. -/
  connect : ServerAddr → ς → ς
  client : ServerAddr → Client (Task (World ς))
  discover : ς → Option ServerAddr × ς
  launch : Nat → LaunchConfig → ς → Except Launch.Error UInt16 × ς
  shutdown : Nat → ς → Except Launch.Error Unit × ς

namespace Cast

variable (cast : Cast ς)

/-- A creation as work in the background. -/
def work (request : Nat × Creation ServerAddr) : Task (World ς) Unit := do
  let (creation, c) := request
  let result ← ((cast.client c.link).create c.objectType c.args c.objectId).attempt
  let settled : Settled := match result with
    | .ok result => .finished result
    | .error reason => .crashed reason
  Task.modify fun w ↦ { w with settled := (creation, settled) :: w.settled }

def collect (w : World ς) : List (Task (World ς) Unit) × World ς :=
  (w.requests.reverse.map cast.work, { w with requests := [] })

/-- The run that starts with a scene. -/
def run (scene : ς) : Run (World ς) := .start (.start scene) cast.collect

/-- What became of a creation. -/
def poll (creation : Nat) (w : World ς) : Option Settled := w.settled.lookup creation

/-- The scene as proxies see it; links are known by the addresses of their servers. -/
def surroundings : Surroundings (Task (World ς)) ServerAddr Nat where
  connect addr := do
    World.changeScene (cast.connect addr)
    return addr
  client := cast.client
  freshId := .modifyGet fun w ↦
    let (id, entropy) := w.entropy.objectId
    (id, { w with entropy := entropy })
  start c := .modifyGet fun w ↦
    (w.creations,
      { w with creations := w.creations + 1, requests := (w.creations, c) :: w.requests })
  poll creation := do return poll creation (← Task.get)
  join creation := .await (fun w ↦ (poll creation w).isSome) do
    return (poll creation (← Task.get)).getD (.crashed "")
  firstLook creation := .modifyGet fun w ↦
    let (new, looked) := World.mark creation w.looked
    (new, { w with looked := looked })
  discover := World.onScene cast.discover
  launch launcher config := World.onScene (cast.launch launcher config)
  release launcher := .modifyGet fun w ↦
    let (new, released) := World.mark launcher w.released
    (new, { w with released := released })
  held launcher := do return launcher ∉ (← Task.get).released
  shutdown launcher := World.onScene (cast.shutdown launcher)

end Cast

end RemoteObjects.Rehearsal
