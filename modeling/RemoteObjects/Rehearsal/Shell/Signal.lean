/-!
# Signals

Their names, and what they do to a process that has not asked for anything else.
-/

namespace RemoteObjects.Rehearsal.Shell

/-- The names of the signals by number; the signal zero is the end of a shell. -/
def signalNames : List String :=
  ["EXIT", "HUP", "INT", "QUIT", "ILL", "TRAP", "ABRT", "BUS", "FPE", "KILL", "USR1", "SEGV",
    "USR2", "PIPE", "ALRM", "TERM", "16", "CHLD", "CONT", "STOP", "TSTP", "TTIN", "TTOU", "URG",
    "XCPU", "XFSZ", "VTALRM", "PROF", "WINCH", "IO", "PWR", "SYS", "32", "33", "RTMIN"]

/-- The signal of a number or, from the least one on, of a name. -/
def signal? (least : Nat) (s : String) : Option Nat :=
  match s.toNat? with
  | some n => if n < 65 then some n else none
  | none =>
    let name := s.map Char.toUpper
    ((List.range signalNames.length).drop least).find? fun n ↦ signalNames[n]? = some name

/-- What a signal does to a process that has not asked for anything else. -/
inductive Reaction where
  | none
  | stop
  | kill
  deriving DecidableEq

def reaction (signal : Nat) : Reaction :=
  if signal ∈ [0, 17, 18, 23, 28] then .none
  else if signal ∈ [19, 20, 21, 22] then .stop
  else .kill

end RemoteObjects.Rehearsal.Shell
