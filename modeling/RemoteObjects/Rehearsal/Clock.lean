import RemoteObjects.Rehearsal.Task

/-!
# Running tasks in virtual time

Tasks run one after another, each until it has to wait, in a fixed order.  The time stands still
as long as any task can go on; then it jumps to the moment when the first of them wakes up.  A sleep
that takes no time is no wait.  Where tasks run together, the crash of one is the end of all.
-/

namespace RemoteObjects.Rehearsal

/-- How a task stands. -/
inductive Standing (σ α : Type) where
  /-- It goes on at a time, given in nanoseconds. -/
  | at (time : Nat) (task : Task σ α)
  /-- It goes on when the state is as wanted. -/
  | when (ready : σ → Bool) (task : Task σ α)
  | finished (a : α)
  | crashed (reason : String)

variable {σ α : Type}

/-- Runs a task until it has to wait. -/
def Task.advance (now : Nat) : Task σ α → σ → Standing σ α × σ
  | .done a, s => (.finished a, s)
  | .act change next, s => (next s).advance now (change s)
  | .sleep d next, s =>
    if d.nanos = 0 then next.advance now s else (.at (now + d.nanos) next, s)
  | .await ready next, s => if ready s then next.advance now s else (.when ready next, s)
  | .crash reason, s => (.crashed reason, s)

namespace Standing

/-- Whether a task can go on now. -/
def runnable (now : Nat) (s : σ) : Standing σ α → Bool
  | .at time _ => time ≤ now
  | .when ready _ => ready s
  | .finished _ | .crashed _ => false

def isOver : Standing σ α → Bool
  | .finished _ | .crashed _ => true
  | .at _ _ | .when _ _ => false

/-- The reason of a crash. -/
def crash? : Standing σ α → Option String
  | .crashed reason => some reason
  | _ => none

/-- What a task has come to. -/
def result? : Standing σ α → Option α
  | .finished a => some a
  | _ => none

/-- When a sleeping task wakes up. -/
def wakes? : Standing σ α → Option Nat
  | .at time _ => some time
  | _ => none

/-- Lets a task go on if it can. -/
def step (now : Nat) (standing : Standing σ α) (s : σ) : Standing σ α × σ :=
  match standing with
  | .at time task => if time ≤ now then task.advance now s else (standing, s)
  | .when ready task => if ready s then task.advance now s else (standing, s)
  | standing => (standing, s)

/-- Lets each task go on that can, in order, as long as none crashes. -/
def stepAll (now : Nat) : List (Standing σ α) → σ → List (Standing σ α) × σ
  | [], s => ([], s)
  | t :: rest, s =>
    let (t, s) := t.step now s
    if t.crash?.isSome then (t :: rest, s)
    else
      let (rest, s) := stepAll now rest s
      (t :: rest, s)

end Standing

/-- What runs: a state, the time, and the work in the background. -/
structure Run (σ : Type) where
  state : σ
  now : Nat
  background : List (Standing σ Unit)
  /-- Takes from the state the work that tasks have handed in for the background. -/
  collect : σ → List (Task σ Unit) × σ

namespace Run

def start (state : σ) (collect : σ → List (Task σ Unit) × σ) : Run σ := ⟨state, 0, [], collect⟩

/-- Lets everything go on once, the given tasks first. -/
def pass (r : Run σ) (tasks : List (Standing σ α)) : List (Standing σ α) × Run σ :=
  let (tasks, s) := Standing.stepAll r.now tasks r.state
  let (work, s) := r.collect s
  let background := r.background ++ work.map (.at r.now ·)
  let (background, s) := Standing.stepAll r.now background s
  (tasks, { r with state := s, background := background.filter (!·.isOver) })

/-- Whether anything can go on without time moving. -/
def busy (r : Run σ) (tasks : List (Standing σ α)) : Bool :=
  tasks.any (·.runnable r.now r.state) || r.background.any (·.runnable r.now r.state)

/-- The next moment when anything wakes up. -/
def nextWake? (r : Run σ) (tasks : List (Standing σ α)) : Option Nat :=
  (tasks.filterMap Standing.wakes? ++ r.background.filterMap Standing.wakes?).min?

/-- Runs until the given tasks are over and nothing can go on without time moving, or one of the
tasks crashes. -/
def settle : Nat → Run σ → List (Standing σ α) → List (Standing σ α) × Run σ
  | 0, r, tasks => (tasks, r)
  | fuel + 1, r, tasks =>
    let (tasks, r) := r.pass tasks
    if tasks.any (·.crash?.isSome) then (tasks, r)
    else if r.busy tasks then settle fuel r tasks
    else if tasks.all Standing.isOver then (tasks, r)
    else match r.nextWake? tasks with
      | some time => settle fuel { r with now := time } tasks
      | none => (tasks, r)

/-- More rounds than any rehearsal takes. -/
def rounds : Nat := 1_000_000_000

/-- Runs tasks that start together, in order, to their ends; a crash is the end of all, and there is
no answer if a task waits for ever. -/
def together (r : Run σ) (tasks : List (Task σ α)) : Except String (List α) × Run σ :=
  let (standings, r) := settle rounds r (tasks.map (.at r.now ·))
  match standings.findSome? Standing.crash?, standings.mapM Standing.result? with
  | some reason, _ => (.error reason, r)
  | none, some results => (.ok results, r)
  | none, none => (.error "waits for ever", r)

/-- Runs one task to its end. -/
def perform (r : Run σ) (task : Task σ α) : Except String α × Run σ :=
  match r.together [task] with
  | (.ok (a :: _), r) => (.ok a, r)
  | (.ok [], r) => (.error "waits for ever", r)
  | (.error reason, r) => (.error reason, r)

end Run

end RemoteObjects.Rehearsal
