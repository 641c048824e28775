import RemoteObjects.Launch.Process
import RemoteObjects.Rehearsal.Shell.Eval

/-!
# A machine to launch servers on

The machine has a shell and a few programs, and no network: nothing that it runs ever accepts a
connection.
-/

namespace RemoteObjects.Rehearsal

open Launch (ExitStatus Machine Round)

/-- A process: when it ends, in milliseconds after its start, and how; or that it runs on. -/
structure Child where
  ends : Option (Nat × ExitStatus)

namespace Child

/-- How far a process is followed. -/
def fuel : Nat := 20_000

/-- The process of a program; nothing if there is none of that name. -/
def ofProgram? (name : String) (args : List String) : Option Child :=
  let (result, p) := (Shell.program fuel name args).run (Shell.Process.start name [] 0)
  match result with
  | .ok none => none
  | .ok (some status) => some ⟨some (p.elapsed, status)⟩
  | .error (.killed n) => some ⟨some (p.elapsed, .signal n)⟩
  | .error _ => some ⟨none⟩

/-- Starts a program; the listener is one that runs on. -/
def spawn (program : String) (args : List String) : Except String Child :=
  if (program :: args).any (·.contains '\x00') then .error "nul byte found in provided data"
  else if (program.splitOn "/").getLast? = some "@listener" then .ok ⟨none⟩
  else match ofProgram? program args, (Shell.Process.start program args 0).kind? program with
    | some child, _ => .ok child
    | none, some _ => .error "Permission denied (os error 13)"
    | none, none => .error "No such file or directory (os error 2)"

/-- What a look at a process meets: an end is seen only after it. -/
def round (child : Child) (n : Nat) : Round where
  seen := .ok (child.ends.bind fun (time, status) ↦ if time < n * 50 then some status else none)
  accepts := false
  took := 0
  overslept := 0

end Child

/-- The machine on which rehearsed servers are launched. -/
def machine : Machine Child where
  freePort _ := .ok 40000
  spawn := Child.spawn
  rounds child _ _ n := child.round n
  kill _ := .ok ()

end RemoteObjects.Rehearsal
