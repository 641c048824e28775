import RemoteObjects.Launch.Readiness
import RemoteObjects.Rehearsal.Shell.Files
import RemoteObjects.Rehearsal.Shell.Options
import RemoteObjects.Rehearsal.Shell.Parser
import RemoteObjects.Rehearsal.Shell.Signal
import RemoteObjects.Rehearsal.Shell.Sum

/-!
# Processes that run scripts

What a shell keeps while it runs a script, and how it may stop.  A process writes to one place and
reads from one place; times are in milliseconds since its machine started.
-/

namespace RemoteObjects.Rehearsal.Shell

/-- A command in the background: when it ends, if ever, and with what status. -/
structure Job where
  id : Nat
  ends : Option Nat
  status : UInt8

structure Process where
  bindings : Variables
  exported : List String
  fixed : List String
  zero : String
  parameters : List String
  functions : List (String × Command)
  aliases : Aliases
  /-- The status of the last command. -/
  last : UInt8
  /-- The status of the last script whose output was put into the words of this command. -/
  inner : Option UInt8
  elapsed : Nat
  written : String
  input : List Char
  files : List (String × String)
  jobs : List Job
  /-- Signals that reach the shell later, each with its time. -/
  alarms : List (Nat × Nat)
  /-- What is done about signals instead of the usual; signal zero is the end of the shell. -/
  traps : List (Nat × String)
  /-- Whether a failure ends the shell. -/
  strict : Bool
  /-- Whether a parameter that is missing ends the shell. -/
  careful : Bool
  /-- Whether commands are only read. -/
  idle : Bool
  /-- How many loops surround the command. -/
  loops : Nat
  /-- The variables of the function that runs, with their values outside. -/
  locals : Option (List (String × Option String))
  /-- How many functions surround the command. -/
  calls : Nat
  /-- How many shells surround this one. -/
  depth : Nat
  /-- Where the reading of options stands. -/
  place : OptionPlace

namespace Process

def start (zero : String) (parameters : List String) (elapsed : Nat) : Process where
  bindings := [("IFS", " \t\n"), ("OPTIND", "1"), ("PPID", "1"), ("PWD", "/"), ("HOME", "/root"),
    ("PATH", "/usr/local/bin:/usr/sbin:/usr/bin:/sbin:/bin")]
  exported := ["HOME", "PATH"]
  fixed := []
  zero := zero
  parameters := parameters
  functions := []
  aliases := []
  last := 0
  inner := none
  elapsed := elapsed
  written := ""
  input := []
  files := []
  jobs := []
  alarms := []
  traps := []
  strict := false
  careful := false
  idle := false
  loops := 0
  locals := none
  calls := 0
  depth := 0
  place := .start

/-- The identifier of the shell itself. -/
def ownId : Nat := 4000

/-- Letters of the options that are on. -/
def options (p : Process) : String :=
  (if p.strict then "e" else "") ++ if p.careful then "u" else ""

/-- How many functions may surround a command. -/
def greatestDepth : Nat := 1000

/-- The value of a parameter, if it is set. -/
def value? (p : Process) (name : String) : Option String :=
  match name with
  | "#" => some (toString p.parameters.length)
  | "?" => some (toString p.last.toNat)
  | "$" => some (toString ownId)
  | "!" => p.jobs.head?.map fun j ↦ toString j.id
  | "-" => some p.options
  | "0" => some p.zero
  | "@" | "*" => if p.parameters.isEmpty then none else some (" ".intercalate p.parameters)
  | name =>
    match name.toNat? with
    | some n => p.parameters[n - 1]?
    | none => p.bindings.lookup name

/-- The characters that end words where a value is put in. -/
def separators (p : Process) : List Char := ((p.bindings.lookup "IFS").getD " \t\n").toList

/-- The directories in which programs are looked for. -/
def searched (p : Process) : List String := ((p.bindings.lookup "PATH").getD "").splitOn ":"

/-- The variables that programs are given. -/
def environment (p : Process) : Variables := p.bindings.filter fun v ↦ v.1 ∈ p.exported

/-- Makes a variable what it was before. -/
def restore (bindings : Variables) (name : String) : Option String → Variables
  | some value => bindings.set name value
  | none => bindings.filter (·.1 ≠ name)

end Process

/-- How a script stops before its end. -/
inductive Stop where
  /-- With the status of the last command. -/
  | exited
  | returned
  | broke (loops : Nat)
  | continued (loops : Nat)
  | killed (signal : Nat)
  /-- It never stops. -/
  | endless

abbrev Act : Type → Type := ExceptT Stop (StateM Process)

namespace Act

variable {α : Type}

/-- What an act comes to, without stopping. -/
def attempt (act : Act α) : Act (Except Stop α) := fun p ↦
  let (result, p) := act.run p
  (.ok result, p)

def finish (status : UInt8) : Act Unit := modify fun p ↦ { p with last := status }

/-- A fault that ends the shell. -/
def fault : Act α := do
  finish 2
  throw .exited

def write (s : String) : Act Unit := modify fun p ↦ { p with written := p.written ++ s }

/-- Sets a variable.  One of them says in which word options are read on. -/
def assign (name value : String) : Act Unit := do
  let p ← get
  if name ∈ p.fixed then fault
  let place : OptionPlace ←
    if name ≠ "OPTIND" then pure p.place
    else match value.toNat? with
      | some n => pure ⟨n - 1, none⟩
      | none => fault
  set { p with bindings := p.bindings.set name value, place := place }

end Act

namespace Process

/-- Whether a signal would end the shell. -/
def fatal (p : Process) (signal : Nat) : Bool :=
  reaction signal ≠ .none && (signal = 9 || signal = 19 || (p.traps.lookup signal).isNone)

/-- The alarms after a command has ended that ran as a process of its own. -/
def childEnded (p : Process) : List (Nat × Nat) :=
  if (p.traps.lookup 17).isSome then p.alarms ++ [(p.elapsed, 17)] else p.alarms

/-- The status of a process that has ended. -/
def statusOf : Launch.ExitStatus → UInt8
  | .code n => n
  | .signal n => (128 + n).toUInt8

end Process

/-- Lets time pass; a signal that ends the shell may come first. -/
def pass (ms : Nat) : Act Unit := do
  let p ← get
  let deadline := p.elapsed + ms
  match p.alarms.find? fun a ↦ a.1 ≤ deadline && p.fatal a.2 with
  | some (time, signal) =>
    set { p with elapsed := max time p.elapsed }
    throw (.killed signal)
  | none => set { p with elapsed := deadline }

namespace Process

/-- The path without slashes at its end. -/
def tidy (path : String) : String :=
  let trimmed := String.ofList (path.toList.reverse.dropWhile (· = '/')).reverse
  if trimmed.isEmpty && !path.isEmpty then "/" else trimmed

def kind? (p : Process) (path : String) : Option Kind :=
  if (p.files.lookup path).isSome then some .file
  else if tidy path ∈ directories then some .directory
  else if path ∈ devices then some .device
  else if path ∈ plainFiles || (program? [] path).isSome then some .file
  else none

/-- What can be read from a path. -/
def content? (p : Process) (path : String) : Option String :=
  match p.files.lookup path with
  | some text => some text
  | none => match p.kind? path with
    | some .file | some .device => some ""
    | _ => none

/-- Whether a path can be written to. -/
def writable (p : Process) (path : String) : Bool :=
  match p.kind? path with
  | some .directory => false
  | some _ => true
  | none => !path.isEmpty && tidy (splitPath path).1 ∈ directories

end Process

end RemoteObjects.Rehearsal.Shell
