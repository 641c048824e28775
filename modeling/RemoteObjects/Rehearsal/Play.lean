import RemoteObjects.Proxy.Build
import RemoteObjects.Proxy.Holdings
import RemoteObjects.Rehearsal.World

/-!
# Rehearsing what is done with proxies

A stage is a world together with the proxies and methods that are held in it under names.  What is
done on it are actions, each of which shows something; what is done together starts in order.
-/

namespace RemoteObjects.Rehearsal

open Proxy (Descriptor Holder Holdings Plan)

inductive Action where
  /-- Makes a proxy and holds it. -/
  | build (slot : String) (plan : Plan Nat)
  | rehydrate (into : String) (methods : MethodTable) (d : Descriptor) (codec : Codec)
  /-- Calls a method of a proxy; of a method that is held the name is known. -/
  | call (slot method : String) (args : CallArgs)
  | method (slot into name : String)
  | clone (slot into : String)
  | name (slot : String)
  | debug (slot : String)
  | inspect (slot : String)
  | waitReady (slot : String)
  | stop (slot : String)
  | descriptor (slot : String)
  | drop (slot : String)
  | advance (d : Duration)

/-- What can be told of a proxy. -/
structure Portrait where
  objectType : String
  objectId : ObjectId
  addr : ServerAddr
  methods : List String
  ownsServer : Bool
  attachedOnly : Bool
  state : Proxy.State

/-- What an action shows. -/
inductive Shown where
  | portrait (p : Portrait)
  | failed (e : Proxy.Error)
  | value (v : Json.Value)
  | text (s : String)
  | ready
  | owns (b : Bool)
  | dropped (b : Bool)
  | descriptor (d : Descriptor)
  | done
  | emptySlot
  | notProxy
  | notMethod

variable {ς : Type}

/-- The proxies and methods held on a stage. -/
abbrev Hands : Type := Holdings ServerAddr Nat

/-- What the end of a call shows. -/
def shownValue : Except Proxy.Error Json.Value → Shown
  | .ok v => .value v
  | .error e => .failed e

/-- Does something with the proxy that is held under a name. -/
def withProxy (h : Hands) (slot : String)
    (act : Proxy ServerAddr Nat → Task (World ς) (Shown × Hands)) :
    Task (World ς) (Shown × Hands) :=
  match h.get? slot with
  | none => return (.emptySlot, h)
  | some (.method _) => return (.notProxy, h)
  | some (.proxy p) => act p

namespace Cast

variable (cast : Cast ς)

def portrait (p : Proxy ServerAddr Nat) : Task (World ς) Portrait := do
  let owns ← p.ownsServer cast.surroundings
  let state ← p.state cast.surroundings
  return ⟨p.objectType, p.objectId, p.addr, p.methods.names, owns, p.attachedOnly, state⟩

/-- Holds a new proxy after a look at it. -/
def hold (h : Hands) (slot : String) (result : Except Proxy.Error (Proxy ServerAddr Nat)) :
    Task (World ς) (Shown × Hands) := do
  match result with
  | .error e => return (.failed e, h)
  | .ok p =>
    let portrait ← cast.portrait p
    return (.portrait portrait, ← h.put cast.surroundings slot (.proxy p))

def act (h : Hands) : Action → Task (World ς) (Shown × Hands)
  | .build slot plan => do cast.hold h slot (← Proxy.build cast.surroundings plan)
  | .rehydrate into methods d codec => do
    cast.hold h into (← Proxy.rehydrate cast.surroundings methods d codec)
  | .call slot method args => do
    match h.get? slot with
    | none => return (.emptySlot, h)
    | some (.proxy p) => return (shownValue (← p.invoke cast.surroundings method args), h)
    | some (.method f) => return (shownValue (← f.call cast.surroundings args), h)
  | .method slot into name => withProxy h slot fun p ↦ do
    match p.method name with
    | .error e => return (.failed e, h)
    | .ok f => return (.text f.name, ← h.put cast.surroundings into (.method f))
  | .clone slot into => do
    match h.get? slot with
    | none => return (.emptySlot, h)
    | some (.proxy p) => cast.hold h into (.ok p.clone)
    | some (.method f) => return (.done, ← h.put cast.surroundings into (.method f))
  | .name slot =>
    match h.get? slot with
    | none => return (.emptySlot, h)
    | some (.proxy _) => return (.notMethod, h)
    | some (.method f) => return (.text f.name, h)
  | .debug slot => do
    match h.get? slot with
    | none => return (.emptySlot, h)
    | some (.proxy p) => return (.text (← p.debug cast.surroundings), h)
    | some (.method f) => return (.text f.debug, h)
  | .inspect slot => withProxy h slot fun p ↦ do
    return (.portrait (← cast.portrait p), h)
  | .waitReady slot => withProxy h slot fun p ↦ do
    match ← p.waitReady cast.surroundings with
    | .ok () => return (.ready, h)
    | .error e => return (.failed e, h)
  | .stop slot => withProxy h slot fun p ↦ do
    p.stop cast.surroundings
    return (.owns (← p.ownsServer cast.surroundings), h)
  | .descriptor slot => withProxy h slot fun p ↦ return (.descriptor p.descriptor, h)
  | .drop slot => do return (.dropped (h.contains slot), ← h.drop cast.surroundings slot)
  | .advance d => do
    Effects.sleep d
    return (.done, h)

end Cast

structure Stage (ς : Type) where
  run : Run (World ς)
  hands : Hands

namespace Stage

variable (cast : Cast ς)

def start (scene : ς) : Stage ς := ⟨cast.run scene, .empty⟩

def scene (s : Stage ς) : ς := s.run.state.scene

def setScene (s : Stage ς) (scene : ς) : Stage ς := { s with run.state.scene := scene }

def act (s : Stage ς) (action : Action) : Except String Shown × Stage ς :=
  match s.run.perform (cast.act s.hands action) with
  | (.ok (shown, hands), run) => (.ok shown, ⟨run, hands⟩)
  | (.error reason, run) => (.error reason, { s with run := run })

/-- Does things that start together; what they would hold is not held. -/
def actTogether (s : Stage ς) (actions : List Action) : Except String (List Shown) × Stage ς :=
  let (results, run) := s.run.together (actions.map (cast.act s.hands))
  (results.map fun l ↦ l.map Prod.fst, { s with run := run })

/-- Lets go of everything. -/
def clear (s : Stage ς) : Stage ς :=
  let (_, run) := s.run.perform (s.hands.dropAll cast.surroundings)
  ⟨run, .empty⟩

end Stage

end RemoteObjects.Rehearsal
