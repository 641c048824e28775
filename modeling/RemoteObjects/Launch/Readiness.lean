import RemoteObjects.Duration
import RemoteObjects.Launch.Error

/-!
# Waiting for a server to listen

A server that was started is looked at in rounds.  In each round, if it has ended, the wait is over,
and so it is if it accepts a connection; if the time is up by then, the wait has failed.  Between
two rounds lies a pause, so the wait comes to an end.
-/

namespace RemoteObjects.Launch

/-- How a process ended. -/
inductive ExitStatus where
  | code (n : UInt8)
  | signal (n : Nat)
  deriving DecidableEq

/-- The name of a signal. -/
def signalName : Nat → String
  | 1 => " (SIGHUP)"
  | 2 => " (SIGINT)"
  | 3 => " (SIGQUIT)"
  | 4 => " (SIGILL)"
  | 5 => " (SIGTRAP)"
  | 6 => " (SIGABRT)"
  | 7 => " (SIGBUS)"
  | 8 => " (SIGFPE)"
  | 9 => " (SIGKILL)"
  | 10 => " (SIGUSR1)"
  | 11 => " (SIGSEGV)"
  | 12 => " (SIGUSR2)"
  | 13 => " (SIGPIPE)"
  | 14 => " (SIGALRM)"
  | 15 => " (SIGTERM)"
  | 16 => " (SIGSTKFLT)"
  | 17 => " (SIGCHLD)"
  | 18 => " (SIGCONT)"
  | 19 => " (SIGSTOP)"
  | 20 => " (SIGTSTP)"
  | 21 => " (SIGTTIN)"
  | 22 => " (SIGTTOU)"
  | 23 => " (SIGURG)"
  | 24 => " (SIGXCPU)"
  | 25 => " (SIGXFSZ)"
  | 26 => " (SIGVTALRM)"
  | 27 => " (SIGPROF)"
  | 28 => " (SIGWINCH)"
  | 29 => " (SIGIO)"
  | 30 => " (SIGPWR)"
  | 31 => " (SIGSYS)"
  | _ => ""

def ExitStatus.message : ExitStatus → String
  | .code n => "exit status: " ++ toString n.toNat
  | .signal n => "signal: " ++ toString n ++ signalName n

/-- What one round meets.  Times are in nanoseconds. -/
structure Round where
  /-- How the process ended, if it has; or why that cannot be told. -/
  seen : Except String (Option ExitStatus)
  accepts : Bool
  /-- How long the look at the process and the attempt to connect take. -/
  took : Nat
  /-- By how much the pause before the next round is longer than it has to be. -/
  overslept : Nat

inductive Verdict where
  | ready
  | exited (status : ExitStatus)
  | unseen (reason : String)
  | timeout
  deriving DecidableEq

/-- The shortest pause between two rounds. -/
def pollInterval : Duration := .ofMillis 50

/-- How a round ends the wait if it starts when `elapsed` nanoseconds have passed; nothing if the
wait goes on. -/
def Round.verdict? (r : Round) (timeout : Duration) (elapsed : Nat) : Option Verdict :=
  match r.seen with
  | .error reason => some (.unseen reason)
  | .ok (some status) => some (.exited status)
  | .ok none =>
    if r.accepts then some .ready
    else if timeout.nanos ≤ elapsed + r.took then some .timeout
    else none

theorem Round.lt_of_verdict?_eq_none {r : Round} {timeout : Duration} {elapsed : Nat}
    (h : r.verdict? timeout elapsed = none) : elapsed + r.took < timeout.nanos := by
  unfold verdict? at h
  split at h
  · cases h
  · cases h
  · split at h
    · cases h
    · split at h
      · cases h
      · next hlate => exact Nat.lt_of_not_le hlate

/-- How the wait goes on in the rounds from the `n`-th when `elapsed` nanoseconds have passed: how
it ends, and after how many rounds. -/
def awaitFrom (timeout : Duration) (rounds : Nat → Round) (elapsed n : Nat) : Verdict × Nat :=
  match h : (rounds n).verdict? timeout elapsed with
  | some verdict => (verdict, n + 1)
  | none =>
    awaitFrom timeout rounds
      (elapsed + (rounds n).took + pollInterval.nanos + (rounds n).overslept) (n + 1)
termination_by timeout.nanos - elapsed
decreasing_by
  have hlt := Round.lt_of_verdict?_eq_none h
  have hpause : 0 < pollInterval.nanos := by decide
  omega

/-- How a wait ends, and after how many rounds. -/
def awaitReady (timeout : Duration) (rounds : Nat → Round) : Verdict × Nat :=
  awaitFrom timeout rounds 0 0

/-- The failure that a verdict amounts to, if it is one. -/
def Verdict.error? (port : UInt16) (timeout : Duration) : Verdict → Option Error
  | .ready => none
  | .exited status => some (.exited status.message)
  | .unseen reason => some (.spawn reason)
  | .timeout => some (.startupTimeout port (.ofNat timeout.millis))

end RemoteObjects.Launch
