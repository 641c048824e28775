import RemoteObjects.Rehearsal.Shell.Printing
import RemoteObjects.Rehearsal.Shell.Test

/-!
# Commands of the shell itself

A command that is given its words and answers with its status.  A fault in the words of a special
command ends the shell; otherwise it only makes the command fail.
-/

namespace RemoteObjects.Rehearsal.Shell.Builtin

/-- An argument that has to be a number, at least zero. -/
def number (s : String) : Act Nat :=
  match Test.number? s with
  | some n => if 0 ≤ n ∧ n < 0x80000000 then return n.toNat else .fault
  | none => .fault

/-- Waits for the end of a command in the background. -/
def await (j : Job) : Act UInt8 := do
  match j.ends with
  | none => throw .endless
  | some time =>
    pass (time - (← get).elapsed)
    return j.status

def wait (words : List String) : Act UInt8 := do
  if words.isEmpty then
    for j in (← get).jobs do
      let _ ← await j
    return 0
  let mut status : UInt8 := 0
  for w in words do
    match (← get).jobs.find? fun j ↦ toString j.id = w with
    | some j => status ← await j
    | none => status := if w.startsWith "%" then 2 else 127
  return status

/-- Sends a signal to the shell. -/
def signalSelf (signal : Nat) : Act Unit := do
  let p ← get
  if p.fatal signal then
    if reaction signal = .stop then throw .endless else throw (.killed signal)
  else if (p.traps.lookup signal).isSome then
    set { p with alarms := (p.elapsed, signal) :: p.alarms }

def signalJob (id signal : Nat) (p : Process) : Process :=
  let ended (j : Job) : Job :=
    if j.id = id && reaction signal = .kill && j.ends.all (p.elapsed < ·) then
      { j with ends := some p.elapsed, status := (128 + signal).toUInt8 }
    else j
  { p with jobs := p.jobs.map ended }

def signalAll (signal : Nat) : List String → Act UInt8
  | [] => return 0
  | w :: rest => do
    match w.toNat? with
    | none => return 2
    | some id =>
      let known := (← get).jobs.any (·.id = id)
      if id = Process.ownId then signalSelf signal
      else modify (signalJob id signal)
      let status ← signalAll signal rest
      return if known || id = Process.ownId then status else 1

def kill (words : List String) : Act UInt8 := do
  let send (signal : Nat) (targets : List String) : Act UInt8 :=
    if targets.isEmpty then return 2 else signalAll signal targets
  match words with
  | "-s" :: name :: targets =>
    match signal? 1 name with
    | some n => send n targets
    | none => return 2
  | "--" :: targets => send 15 targets
  | option :: targets =>
    match option.toList with
    | '-' :: name =>
      match signal? 1 (String.ofList name), name with
      | some n, _ => send n targets
      | none, ['l'] =>
        let named := targets.map fun w ↦ w.toNat?.bind fun n ↦ signalNames[n % 128]?
        for name in named do
          Act.write (name.getD "" ++ "\n")
        return if named.all Option.isSome then 0 else 2
      | none, 's' :: name =>
        match signal? 1 (String.ofList name) with
        | some n => send n targets
        | none => return 2
      | none, _ => return 2
    | _ => send 15 words
  | [] => return 2

/-- Splits the words of a line among so many variables; the last one takes what is left. -/
def readFields (separators : List Char) : Nat → List Char → List String
  | 0, _ => []
  | 1, text =>
    let text := text.dropWhile (· ∈ separators)
    [String.ofList (text.reverse.dropWhile (· ∈ separators)).reverse]
  | n + 1, text =>
    let text := text.dropWhile (· ∈ separators)
    let word := text.takeWhile (· ∉ separators)
    String.ofList word :: readFields separators n (text.drop word.length)

def read (words : List String) : Act UInt8 := do
  let names := words.filter (!·.startsWith "-")
  if names.isEmpty then return 2
  let p ← get
  let line := p.input.takeWhile (· ≠ '\n')
  set { p with input := p.input.drop (line.length + 1) }
  for (name, value) in names.zip (readFields p.separators names.length line) do
    Act.assign name value
  return if line.length < p.input.length then 0 else 1

def isVariable (name : String) : Bool :=
  match name.toList with
  | c :: rest => Parser.isNameStart c && rest.all Parser.isName
  | [] => false

/-- Reads the next option of some words, or of the positional parameters, into variables. -/
def getopts (words : List String) : Act UInt8 := do
  let described :: name :: words := words | Act.fault
  let p ← get
  let words := if words.isEmpty then p.parameters else words
  let place := if words.length < p.place.words then .start else p.place
  let silent := described.startsWith ":"
  let (found, place) := OptionFound.next described.toList words place
  let (shown, argument) : Char × Option String := match found with
    | .known letter argument => (letter, some argument)
    | .unknown letter => ('?', if silent then some (String.ofList [letter]) else none)
    | .bare letter => if silent then (':', some (String.ofList [letter])) else ('?', none)
    | .ended => ('?', p.bindings.lookup "OPTARG")
  set { p with bindings := Process.restore p.bindings "OPTARG" argument }
  Act.assign "OPTIND" (toString (place.words + 1))
  if !isVariable name then Act.fault
  Act.assign name (String.ofList [shown])
  modify fun p ↦ { p with place := place }
  return match found with
    | .ended => 1
    | _ => 0

/-- A name with a value, or without. -/
def declaration (w : String) : String × Option String :=
  match w.splitOn "=" with
  | name :: first :: rest => (name, some ("=".intercalate (first :: rest)))
  | _ => (w, none)

/-- Declares variables; `note` keeps what is special about them. -/
def declare (note : String → Process → Process) (words : List String) : Act Unit := do
  for w in words do
    if w ∉ ["-p", "--"] then
      let (name, value) := declaration w
      if !isVariable name then Act.fault
      if let some v := value then Act.assign name v
      modify (note name)

def unset (words : List String) : Act Unit := do
  for w in words do
    if w = "-f" || w = "-v" then continue
    if !isVariable w then Act.fault
    let p ← get
    if w ∈ p.fixed then Act.fault
    set { p with
      bindings := p.bindings.filter (·.1 ≠ w)
      exported := p.exported.filter (· ≠ w)
      functions := p.functions.filter (·.1 ≠ w) }

def option (c : Char) (on : Bool) : Act Unit := do
  if c = 'e' then modify fun p ↦ { p with strict := on }
  else if c = 'u' then modify fun p ↦ { p with careful := on }
  else if c = 'n' then modify fun p ↦ { p with idle := on }
  else if c ∉ "fIimsxvVEabC".toList then Act.fault

def longOptions : List (String × Char) :=
  [("errexit", 'e'), ("nounset", 'u'), ("noglob", 'f'), ("ignoreeof", 'I'), ("interactive", 'i'),
    ("monitor", 'm'), ("noexec", 'n'), ("stdin", 's'), ("xtrace", 'x'), ("verbose", 'v'),
    ("vi", 'V'), ("emacs", 'E'), ("noclobber", 'C'), ("allexport", 'a'), ("notify", 'b'),
    ("nolog", 'x'), ("debug", 'x')]

def optionLetters (on : Bool) : List Char → List String → Act (List String)
  | [], words => return words
  | 'o' :: rest, words => do
    match words with
    | name :: words =>
      match longOptions.lookup name with
      | some c =>
        option c on
        optionLetters on rest words
      | none => Act.fault
    | [] => optionLetters on rest words
  | c :: rest, words => do
    option c on
    optionLetters on rest words

/-- Sets the positional parameters; options are read from the first of them again. -/
def renumber (words : List String) : Act Unit :=
  modify fun p ↦ { p with parameters := words, place := .start }

def setWords : Nat → List String → Act Unit
  | 0, _ => return
  | _, [] => return
  | fuel + 1, w :: rest => do
    match w.toList with
    | ['-', '-'] => renumber rest
    | ['-'] => if !rest.isEmpty then renumber rest
    | '-' :: letters =>
      let rest ← optionLetters true letters rest
      setWords fuel rest
    | '+' :: letters =>
      let rest ← optionLetters false letters rest
      setWords fuel rest
    | _ => renumber (w :: rest)

def trap (words : List String) : Act UInt8 := do
  let words := if words.head? = some "--" then words.drop 1 else words
  let (action, names) : Option String × List String := match words with
    | [] => (none, [])
    | [name] => (none, [name])
    | "-" :: names => (none, names)
    | action :: names => (some action, names)
  for name in names do
    match signal? 0 name with
    | none => return 1
    | some n =>
      modify fun p ↦
        let others := p.traps.filter (·.1 ≠ n)
        { p with traps := match action with
            | some a => (n, a) :: others
            | none => others }
  return 0

def names : List String :=
  Parser.special ++ ["true", "false", "echo", "printf", "test", "[", "cd", "pwd", "read", "wait",
    "kill", "command", "type", "umask", "local", "getopts", "hash", "ulimit", "jobs", "alias",
    "unalias", "fg", "bg"]

def test (words : List String) : Act UInt8 := return Test.status (← get) words

/-- The status of a test between brackets. -/
def bracket (words : List String) : Act UInt8 :=
  if words.getLast? = some "]" then test words.dropLast else return 2

def printf (words : List String) : Act UInt8 := do
  let optional := words.head? = some "--"
  match if optional then words.drop 1 else words with
  | [] => return 2
  | pattern :: words =>
    if !optional && pattern.startsWith "-" then return 2
    let (text, status) := Printing.printf pattern words
    Act.write text
    return status

/-- Sets aliases, or writes those that are asked for. -/
def setAliases (words : List String) : Act UInt8 := do
  let p ← get
  let shown (a : String × String) : String := a.1 ++ "='" ++ a.2 ++ "'\n"
  if words.isEmpty then Act.write (String.join (p.aliases.map shown))
  let mut status : UInt8 := 0
  for w in words do
    match declaration w with
    | (name, some text) =>
      modify fun p ↦ { p with aliases := (name, text) :: p.aliases.filter (·.1 ≠ name) }
    | (name, none) =>
      match (← get).aliases.lookup name with
      | some text => Act.write (shown (name, text))
      | none => status := 1
  return status

def unalias (words : List String) : Act UInt8 := do
  let p ← get
  if words = ["-a"] then
    set { p with aliases := [] }
    return 0
  set { p with aliases := p.aliases.filter (·.1 ∉ words) }
  return if words.all fun w ↦ p.aliases.any (·.1 = w) then 0 else 1

/-- What a name stands for. -/
inductive Meaning where
  /-- A text that is read in its place. -/
  | text (s : String)
  | function
  | builtin
  | program (path : String)

def meaning? (name : String) : Act (Option Meaning) := do
  let p ← get
  match p.aliases.lookup name, p.functions.lookup name, program? p.searched name with
  | some text, _, _ => return some (.text text)
  | none, some _, _ => return some .function
  | none, none, program =>
    if name ∈ names then return some .builtin
    return program.map fun _ ↦ .program (if name.contains '/' then name else "/usr/bin/" ++ name)

/-- Whether a name is that of something to run. -/
def known (name : String) : Act Bool := return (← meaning? name).isSome

/-- Writes what names stand for; `long` asks for a sentence. -/
def mentions (long : Bool) (words : List String) : Act UInt8 := do
  let mut status : UInt8 := 0
  for w in words do
    let (short, sentence) : Option String × String := match ← meaning? w with
      | some (.text text) =>
        (some ("alias " ++ w ++ "='" ++ text ++ "'"), "is an alias for " ++ text)
      | some .function => (some w, "is a shell function")
      | some .builtin =>
        (some w, if w ∈ Parser.special then "is a special shell builtin" else "is a shell builtin")
      | some (.program path) => (some path, "is " ++ path)
      | none => (none, "not found")
    if short.isNone then status := 127
    if long then Act.write (w ++ (if short.isNone then ": " else " ") ++ sentence ++ "\n")
    else if let some s := short then Act.write (s ++ "\n")
  return status

/-- Goes to a directory and remembers where the shell was before. -/
def enter (words : List String) : Act UInt8 := do
  let p ← get
  let value (name : String) : String := (p.bindings.lookup name).getD ""
  let (path, shown) : String × Bool := match words.filter (· ∉ ["--", "-L", "-P"]) with
    | [] => (value "HOME", false)
    | "-" :: _ => (value "OLDPWD", true)
    | w :: _ => (w, false)
  let path := resolve (value "PWD") path
  if path ∉ directories then return 2
  Act.assign "OLDPWD" (value "PWD")
  Act.assign "PWD" path
  if shown then Act.write (path ++ "\n")
  return 0

/-- Commands that only need their words. -/
def plain? (name : String) (words : List String) : Option (Act UInt8) :=
  match name with
  | "true" | ":" | "times" | "ulimit" | "jobs" => some (return 0)
  | "false" => some (return 1)
  | "umask" => some do
    if words.isEmpty then Act.write "0022\n"
    return 0
  | "alias" => some (setAliases words)
  | "unalias" => some (unalias words)
  | "echo" => some do
    Act.write (Printing.echo words)
    return 0
  | "printf" => some (printf words)
  | "test" => some (test words)
  | "[" => some (bracket words)
  | "cd" => some (enter words)
  | "pwd" => some do
    Act.write (((← get).bindings.lookup "PWD").getD "/" ++ "\n")
    return 0
  | "read" => some (read words)
  | "getopts" => some (getopts words)
  | "wait" => some (wait words)
  | "kill" => some (kill words)
  | "type" => some (mentions true words)
  | "hash" => some do
    return if ← words.allM known then 0 else 1
  | "fg" | "bg" => some (return 2)
  | "trap" => some (trap words)
  | "export" => some do
    declare (fun name p ↦ { p with exported := name :: p.exported }) words
    return 0
  | "readonly" => some do
    declare (fun name p ↦ { p with fixed := name :: p.fixed }) words
    return 0
  | "unset" => some do
    unset words
    return 0
  | "set" => some do
    setWords (words.length + 1) words
    return 0
  | "shift" => some do
    let n ← match words with
      | [] => pure 1
      | w :: _ => number w
    let p ← get
    if p.parameters.length < n then Act.fault
    renumber (p.parameters.drop n)
    return 0
  | "exit" => some do
    if let w :: _ := words then Act.finish (UInt8.ofNat (← number w))
    throw .exited
  | "return" => some do
    if let w :: _ := words then Act.finish (UInt8.ofNat (← number w))
    throw .returned
  | "break" => some do
    let n ← match words with
      | [] => pure 1
      | w :: _ => number w
    if n = 0 then Act.fault
    let loops := (← get).loops
    if loops = 0 then return 0
    throw (.broke (min n loops))
  | "continue" => some do
    let n ← match words with
      | [] => pure 1
      | w :: _ => number w
    if n = 0 then Act.fault
    let loops := (← get).loops
    if loops = 0 then return 0
    throw (.continued (min n loops))
  | "local" => some do
    for w in words do
      let (name, value) := declaration w
      let p ← get
      match p.locals with
      | none => Act.fault
      | some saved =>
        set { p with locals := some ((name, p.bindings.lookup name) :: saved) }
        if let some v := value then Act.assign name v
    return 0
  | _ => none

end RemoteObjects.Rehearsal.Shell.Builtin
