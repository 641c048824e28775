import RemoteObjects.Effects

/-!
# Tasks over shared state

A task is code that shares a state with other tasks.  It changes the state in single steps, and
between two steps other tasks may run; it may also wait, for a time or until the state lets it go
on, and it may crash.  No wait for a time takes more than thirty years.
-/

namespace RemoteObjects.Rehearsal

inductive Task (σ α : Type) where
  | done (a : α)
  /-- Changes the state; what comes next may depend on the state before the change. -/
  | act (change : σ → σ) (next : σ → Task σ α)
  | sleep (d : Duration) (next : Task σ α)
  /-- Waits until the state is as wanted. -/
  | await (ready : σ → Bool) (next : Task σ α)
  | crash (reason : String)

namespace Task

variable {σ α β : Type}

def bind : Task σ α → (α → Task σ β) → Task σ β
  | .done a, f => f a
  | .act change next, f => .act change fun s ↦ (next s).bind f
  | .sleep d next, f => .sleep d (next.bind f)
  | .await ready next, f => .await ready (next.bind f)
  | .crash reason, _ => .crash reason

instance : Monad (Task σ) where
  pure := .done
  bind := .bind

/-- Ends with the reason of a crash instead of crashing. -/
def attempt : Task σ α → Task σ (Except String α)
  | .done a => .done (.ok a)
  | .act change next => .act change fun s ↦ (next s).attempt
  | .sleep d next => .sleep d next.attempt
  | .await ready next => .await ready next.attempt
  | .crash reason => .done (.error reason)

/-- Reads the state. -/
def get : Task σ σ := .act id .done

def modify (change : σ → σ) : Task σ Unit := .act change fun _ ↦ .done ()

/-- Computes an answer and the next state from the state. -/
def modifyGet (f : σ → α × σ) : Task σ α := .act (fun s ↦ (f s).2) fun s ↦ .done (f s).1

end Task

/-- A state that keeps a log. -/
class Logging (σ : Type) where
  record : Event → σ → σ

/-- Thirty years of 365 days. -/
def longestWait : Duration := .ofMillis 946_080_000_000

/-- In a rehearsal the jitter factor is always one. -/
instance {σ : Type} [Logging σ] : Effects (Task σ) where
  sleep d := .sleep (d.min longestWait) (.done ())
  jitter := .done (.ofNat 1)
  log e := .modify (Logging.record e)
  crash reason := .crash reason

end RemoteObjects.Rehearsal
