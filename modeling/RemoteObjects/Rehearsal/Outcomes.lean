import RemoteObjects.Rehearsal.World
import RemoteObjects.Retry.Loop

/-!
# Operations with listed outcomes

An operation whose outcomes are listed has the first of them when it is run for the first time, and
so on; the last one repeats.  Each is marked with the number of the run.
-/

namespace RemoteObjects.Rehearsal

inductive Listed where
  | ok (text : String)
  | failed (text : String) (permanent : Bool)

structure Failure where
  text : String
  permanent : Bool

instance : ToString Failure := ⟨Failure.text⟩

/-- The outcome of the `n`-th run, counted from one. -/
def Listed.outcome (n : Nat) : Listed → Except Failure String
  | .ok text => .ok (text ++ "@" ++ toString n)
  | .failed text permanent => .error ⟨text ++ " #" ++ toString n, permanent⟩

/-- The operation; the scene counts its runs. -/
def listedOperation (outcomes : List Listed) : Task (World Nat) (Except Failure String) := do
  let n ← World.onScene fun n ↦ (n + 1, n + 1)
  let listed := (outcomes[n - 1]?.or outcomes.getLast?).getD (.failed "" false)
  return listed.outcome n

/-- How a retried operation went. -/
structure Report where
  calls : Nat
  /-- The nanoseconds that it slept. -/
  slept : Nat
  result : Except String (Except (RetryError Failure) String)
  log : List Event

/-- Retries an operation, after every failure or after those that are not permanent. -/
def retryListed (policy : RetryPolicy) (all : Bool) (outcomes : List Listed) : Report :=
  let again (f : Failure) : Bool := all || !f.permanent
  let (result, run) := (Run.start (World.start 0) fun w ↦ ([], w)).perform
    (policy.retryIf again (listedOperation outcomes))
  ⟨run.state.scene, run.now, result, run.state.log⟩

/-- Whether a number of sleeps may take so long in all, whatever the jitter, give or take two
milliseconds each. -/
def withinJitter (policy : RetryPolicy) (sleeps slept : Nat) : Bool :=
  let slack := sleeps * 2000000
  let (low, high) := match policy with
    | .fixed _ delay => (sleeps * delay.nanos / 2, sleeps * delay.nanos * 3 / 2)
    | .exponential _ base max => (sleeps * min (base.nanos / 2) max.nanos,
        (List.range sleeps).foldl (fun sum i ↦
          sum + min (base.nanos * Nat.pow 3 (i + 1) / 2) max.nanos) 0)
  low ≤ slept + slack && slept ≤ high + slack

end RemoteObjects.Rehearsal
