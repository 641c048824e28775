import RemoteObjects.Effects
import RemoteObjects.Retry.Policy

/-!
# Repeating failed operations

An operation is run until it succeeds, fails in a way that is not worth repeating, or has failed
once more often than the policy permits repetitions.  Between two attempts lies the next delay of
a schedule that is started for this operation alone.
-/

namespace RemoteObjects

universe u

inductive RetryError (ε : Type u) where
  /-- All attempts failed, the last one with `last`. -/
  | exhausted (attempts : UInt32) (last : ε)
  /-- The failure was not worth another attempt. -/
  | aborted (e : ε)
  deriving DecidableEq

namespace RetryError

variable {ε : Type u}

/-- The failure itself. -/
def inner : RetryError ε → ε
  | .exhausted _ last => last
  | .aborted e => e

def isExhausted : RetryError ε → Bool
  | .exhausted _ _ => true
  | .aborted _ => false

def message [ToString ε] : RetryError ε → String
  | .exhausted attempts last =>
    "Retries exhausted after " ++ toString attempts.toNat ++ " attempts: " ++ toString last
  | .aborted e => "Non-retryable failure: " ++ toString e

end RetryError

namespace RetryPolicy

variable {m : Type → Type} [Monad m] [Effects m] {ε α : Type} [ToString ε]

/-- Runs an operation with so many repetitions left, after `done` failed attempts. -/
def attempt (again : ε → Bool) (op : m (Except ε α)) :
    Nat → UInt32 → Backoff → m (Except (RetryError ε) α)
  | left, done, backoff => do
    match ← op with
    | .ok a => return .ok a
    | .error e =>
      if !again e then return .error (.aborted e)
      match left with
      | 0 =>
        Effects.log ⟨.warn, "retries exhausted",
          [("attempts", toString (done + 1).toNat), ("error", toString e)]⟩
        return .error (.exhausted (done + 1) e)
      | left + 1 =>
        match backoff.next (← Effects.jitter) with
        | .error failure => Effects.crash failure.message
        | .ok (delay, backoff) =>
          Effects.log ⟨.info, "attempt failed, retrying",
            [("attempt", toString (done + 1).toNat),
              ("delay_ms", toString (delay.millis % UInt64.size)), ("error", toString e)]⟩
          Effects.sleep delay
          attempt again op left (done + 1) backoff

/-- Runs an operation and repeats it after the failures that are worth it. -/
def retryIf (policy : RetryPolicy) (again : ε → Bool) (op : m (Except ε α)) :
    m (Except (RetryError ε) α) :=
  attempt again op policy.maxAttempts.toNat 0 (.start policy)

/-- Runs an operation and repeats it after every failure. -/
def retry (policy : RetryPolicy) (op : m (Except ε α)) : m (Except (RetryError ε) α) :=
  policy.retryIf (fun _ ↦ true) op

end RetryPolicy

end RemoteObjects
