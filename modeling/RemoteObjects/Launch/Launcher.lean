import RemoteObjects.Launch.Error

/-!
# Launchers of processes

A launcher holds at most one process that it has launched.  A launch first looks whether one is
held, then starts a process, and only when the process is ready takes hold of it.  Whatever is no
longer held is killed: the process of a launch that failed, and one that another takes the place of.

Launches may overlap, so a launcher changes in steps, and steps of different launches may come in
any order.
-/

namespace RemoteObjects.Launch

/-- A launcher of processes that are known by names of the type `χ`. -/
structure Launcher (χ : Type) where
  held : Option χ
  /-- The launches that wait for their process to be ready. -/
  starting : List (Nat × χ)
  /-- The processes whose end was asked for, the last one first. -/
  killed : List χ

inductive Step (χ : Type) where
  /-- A launch starts, and tries to start a process unless one is held. -/
  | launch (id : Nat) (spawned : Except Error χ)
  /-- The process of a launch is ready, or will not be. -/
  | settle (id : Nat) (failure : Option Error)
  /-- The held process is to be stopped; asking for its end may fail. -/
  | shutdown (failure : Option String)

/-- What a step answers to whoever caused it. -/
abbrev Answer : Type := Except Error Unit

namespace Launcher

variable {χ : Type}

def idle : Launcher χ := ⟨none, [], []⟩

def isRunning (l : Launcher χ) : Bool := l.held.isSome

/-- The launcher after a step, and the answer if the step ends a launch or a shutdown. -/
def step (l : Launcher χ) : Step χ → Launcher χ × Option Answer
  | .launch id spawned =>
    if l.isRunning then (l, some (.error .alreadyRunning))
    else match spawned with
      | .error e => (l, some (.error e))
      | .ok child => ({ l with starting := (id, child) :: l.starting }, none)
  | .settle id failure =>
    match l.starting.lookup id with
    | none => (l, none)
    | some child =>
      let l := { l with starting := l.starting.filter (·.1 ≠ id) }
      match failure with
      | some e => ({ l with killed := child :: l.killed }, some (.error e))
      | none => ({ l with held := some child, killed := l.held.toList ++ l.killed }, some (.ok ()))
  | .shutdown failure =>
    match l.held with
    | none => (l, some (.ok ()))
    | some child =>
      let l := { l with held := none, killed := child :: l.killed }
      match failure with
      | some reason => (l, some (.error (.shutdown reason)))
      | none => (l, some (.ok ()))

/-- A launch that no other step comes between. -/
def launchAlone (l : Launcher χ) (spawned : Except Error χ) (failure : Option Error) :
    Launcher χ × Answer :=
  match l.step (.launch 0 spawned) with
  | (l, some answer) => (l, answer)
  | (l, none) =>
    let (l, answer) := l.step (.settle 0 failure)
    (l, answer.getD (.ok ()))

end Launcher

end RemoteObjects.Launch
