import RemoteObjects.Client.Framed
import RemoteObjects.Client.Retrying
import RemoteObjects.Pool
import RemoteObjects.Rehearsal.CounterServer
import RemoteObjects.Rehearsal.World

/-!
# Servers that follow a script

Every exchange takes the next entry of a script, which may delay it, make it fail, or say the reply.
Where the script says nothing, the counters answer, unless their server is down.
-/

namespace RemoteObjects.Rehearsal

/-- How an exchange fails. -/
inductive Mishap where
  | connectionLost (reason : String)
  | timeout
  /-- The request is too long. -/
  | tooLarge
  | io (reason : String)

def Mishap.error (request : ByteArray) : Mishap → Transport.Error
  | .connectionLost reason => .connectionLost reason
  | .timeout => .timeout
  | .tooLarge => .payloadTooLarge request.size
  | .io reason => .io reason

inductive Turn where
  /-- The counters answer. -/
  | serve
  | fail (mishap : Mishap)
  | crash (reason : String)
  | reply (bytes : ByteArray)

/-- An entry of a script. -/
structure Cue where
  delay : Option Duration
  turn : Turn

/-- What can be seen from outside. -/
inductive Sight where
  | connect (addr : ServerAddr)
  | send (addr : ServerAddr) (frame : ByteArray)
  | launch (config : LaunchConfig)
  | shutdown

/-- How a launcher behaves. -/
structure LauncherPart where
  port : UInt16
  failLaunch : Option Launch.Error
  failShutdown : Option Launch.Error

structure Scripted where
  script : List Cue
  down : List ServerAddr
  /-- What was seen, the last sight first. -/
  seen : List Sight
  counters : Counters
  pool : ServerPool
  launchers : List LauncherPart

namespace Scripted

def start (script : List Cue) (down pool : List ServerAddr) : Scripted :=
  ⟨script, down, [], [], .ofList pool, []⟩

def see (sight : Sight) (s : Scripted) : Scripted := { s with seen := sight :: s.seen }

/-- Sends a request and takes the next entry of the script. -/
def takeCue (addr : ServerAddr) (frame : ByteArray) (s : Scripted) : Cue × Scripted :=
  let s := s.see (.send addr frame)
  match s.script with
  | [] => (⟨none, .serve⟩, s)
  | cue :: script => (cue, { s with script := script })

/-- The reply of a server as long as it does not crash. -/
def answer (addr : ServerAddr) (frame : ByteArray) (turn : Turn) (s : Scripted) :
    Except Transport.Error ByteArray × Scripted :=
  if addr ∈ s.down then (.error (.connectionLost "server is down"), s)
  else match turn with
    | .fail mishap => (.error (mishap.error frame), s)
    | .reply bytes => (.ok bytes, s)
    | .serve | .crash _ =>
      let (bytes, counters) := s.counters.reply addr frame
      (.ok bytes, { s with counters := counters })

/-- Ends an exchange after its delay. -/
def finish (addr : ServerAddr) (frame : ByteArray) (turn : Turn) :
    Task (World Scripted) (Except Transport.Error ByteArray) := do
  if let .crash reason := turn then
    if addr ∉ (← Task.get).scene.down then Effects.crash reason
  World.onScene (answer addr frame turn)

def transport (addr : ServerAddr) : Transport (Task (World Scripted)) where
  call frame := do
    let cue ← World.onScene (takeCue addr frame)
    if let some d := cue.delay then Effects.sleep d
    finish addr frame cue.turn
  callWithin limit frame := do
    let cue ← World.onScene (takeCue addr frame)
    match cue.delay with
    | none => return some (← finish addr frame cue.turn)
    | some d =>
      if limit.nanos < (d.min longestWait).nanos then
        Effects.sleep limit
        return none
      Effects.sleep d
      return some (← finish addr frame cue.turn)

def launch (launcher : Nat) (config : LaunchConfig) (s : Scripted) :
    Except Launch.Error UInt16 × Scripted :=
  let result : Except Launch.Error UInt16 := match s.launchers[launcher]? with
    | none => .error .alreadyRunning
    | some part => match part.failLaunch with
      | some e => .error e
      | none => .ok (config.port.getD part.port)
  (result, s.see (.launch config))

def shutdown (launcher : Nat) (s : Scripted) : Except Launch.Error Unit × Scripted :=
  let result : Except Launch.Error Unit := match s.launchers[launcher]?.bind (·.failShutdown) with
    | some e => .error e
    | none => .ok ()
  (result, s.see .shutdown)

def cast (probe : Duration) (retry : Option RetryPolicy) : Cast Scripted where
  connect addr := see (.connect addr)
  client addr := (Client.framed (transport addr) probe).maybeRetrying retry
  discover s :=
    let (addr, pool) := s.pool.allocate
    (addr, { s with pool := pool })
  launch := launch
  shutdown := shutdown

end Scripted

end RemoteObjects.Rehearsal
