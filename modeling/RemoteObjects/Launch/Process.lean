import RemoteObjects.Effects
import RemoteObjects.Launch.Config
import RemoteObjects.Launch.Launcher
import RemoteObjects.Launch.Readiness

/-!
# Servers as processes

A server is a program that is given the flags of a configuration after some fixed arguments.  What
a machine does with programs and ports is described by a `Machine`.
-/

namespace RemoteObjects.Launch

structure Machine (χ : Type) where
  freePort : (host : String) → Except Error UInt16
  /-- Starts a program; a failure says what the machine has to say. -/
  spawn : (program : String) → (args : List String) → Except String χ
  /-- What a wait for a server meets, round after round. -/
  rounds : χ → (host : String) → (port : UInt16) → Nat → Round
  /-- Asks for the end of a process; a failure says what the machine has to say. -/
  kill : χ → Except String Unit

/-- The port for a server: the one that is asked for, or a free one. -/
def Machine.port {χ : Type} (machine : Machine χ) (config : LaunchConfig) : Except Error UInt16 :=
  match config.port with
  | some port => .ok port
  | none => machine.freePort config.host

/-- A program with its fixed arguments, and the launcher of its processes. -/
structure Service (χ : Type) where
  program : String
  args : List String
  launcher : Launcher χ

namespace Service

variable {χ : Type}

/-- Starts the process of a launch. -/
def spawn (machine : Machine χ) (s : Service χ) (config : LaunchConfig) (port : UInt16) :
    Except Error χ :=
  (machine.spawn s.program (s.args ++ config.flags port)).mapError fun reason ↦
    .spawn (s.program ++ ": " ++ reason)

/-- The failure of the wait for a process, if it fails. -/
def failure (machine : Machine χ) (config : LaunchConfig) (port : UInt16) (child : χ) :
    Option Error :=
  (awaitReady config.startupTimeout (machine.rounds child config.host port)).1.error? port
    config.startupTimeout

/-- What there is to report of the end of a process that did not get ready. -/
def unkilled (machine : Machine χ) (s : Service χ) (child : χ) : List Event :=
  match machine.kill child with
  | .ok () => []
  | .error reason => [⟨.debug, "failed to kill unready server",
      [("program", s.program), ("error", reason)]⟩]

/-- Launches a server and answers with its port, and with the events to report. -/
def launch (machine : Machine χ) (config : LaunchConfig) (s : Service χ) :
    Except Error UInt16 × List Event × Service χ :=
  if s.launcher.isRunning then (.error .alreadyRunning, [], s)
  else
    match machine.port config with
    | .error e => (.error e, [], s)
    | .ok port =>
      let spawned := s.spawn machine config port
      let failure := match spawned with
        | .ok child => failure machine config port child
        | .error _ => none
      let (launcher, answer) := s.launcher.launchAlone spawned failure
      let started : List Event := match spawned with
        | .ok _ => [⟨.debug, "server process spawned",
            [("program", s.program), ("port", toString port.toNat)]⟩]
        | .error _ => []
      let ended : List Event := match spawned, answer with
        | .ok _, .ok () => [⟨.info, "server launched",
            [("program", s.program), ("host", config.host), ("port", toString port.toNat)]⟩]
        | .ok child, .error _ => s.unkilled machine child
        | .error _, _ => []
      (answer.map fun _ ↦ port, started ++ ended, { s with launcher := launcher })

/-- Stops the server if one runs.  To ask for its end may fail. -/
def shutdown (s : Service χ) (kill : χ → Except String Unit := fun _ ↦ .ok ()) :
    Except Error Unit × List Event × Service χ :=
  match s.launcher.held with
  | none => (.ok (), [], s)
  | some child =>
    let failure := match kill child with
      | .ok () => none
      | .error reason => some reason
    let (launcher, answer) := s.launcher.step (.shutdown failure)
    let answer := answer.getD (.ok ())
    let events : List Event := match answer with
      | .ok () => [⟨.info, "server stopped", [("program", s.program)]⟩]
      | .error _ => []
    (answer, events, { s with launcher := launcher })

end Service

end RemoteObjects.Launch
