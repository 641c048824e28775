import RemoteObjects.Duration
import RemoteObjects.Retry.Config

/-!
# Retry policies

A policy is a schedule of delays for the attempts after a failure.  The exponential schedule caps a
delay before it doubles it for the next one, so the delays keep growing until they reach the cap.
Every delay is multiplied by a jitter factor.
-/

namespace RemoteObjects

inductive RetryPolicy where
  | fixed (maxAttempts : UInt32) (delay : Duration)
  | exponential (maxAttempts : UInt32) (baseDelay maxDelay : Duration)
  deriving DecidableEq

namespace RetryPolicy

/-- The exponential schedule, its first delay lowered to the cap. -/
def capped (maxAttempts : UInt32) (baseDelay maxDelay : Duration) : RetryPolicy :=
  .exponential maxAttempts (baseDelay.min maxDelay) maxDelay

/-- A delay in seconds under the name of its field. -/
def delayOf (field : String) (value : Binary64) : Except RetryConfig.Error Duration :=
  (Duration.ofSeconds value).mapError fun _ ↦ .invalidDelay field value

def ofConfig : RetryConfig → Except RetryConfig.Error RetryPolicy
  | .fixed maxAttempts delay => return .fixed maxAttempts (← delayOf "delay" delay)
  | .exponential maxAttempts baseDelay maxDelay => do
    if maxDelay.lt baseDelay then throw (.delayOrder baseDelay maxDelay)
    let base ← delayOf "base_delay" baseDelay
    let max ← delayOf "max_delay" maxDelay
    return .capped maxAttempts base max

def ofString (s : String) : Except RetryConfig.Error RetryPolicy := do
  ofConfig (← RetryConfig.ofString s)

/-- How many times a failed operation is repeated. -/
def maxAttempts : RetryPolicy → UInt32
  | .fixed maxAttempts _ | .exponential maxAttempts _ _ => maxAttempts

end RetryPolicy

/-- A schedule in use: the policy and the delay that comes next, before jitter. -/
structure Backoff where
  policy : RetryPolicy
  current : Duration

namespace Backoff

def start (policy : RetryPolicy) : Backoff where
  policy := policy
  current := match policy with
    | .fixed _ delay => delay
    | .exponential _ baseDelay _ => baseDelay

/-- The next delay and the schedule after it. -/
def next (b : Backoff) (jitter : Binary64) : Except Duration.Failure (Duration × Backoff) :=
  match b.policy with
  | .fixed _ delay => do
    return (← delay.scale jitter, b)
  | .exponential _ _ maxDelay => do
    let delay := (← b.current.scale jitter).min maxDelay
    return (delay, { b with current := delay.double })

end Backoff

end RemoteObjects
