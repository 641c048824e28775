import RemoteObjects.Rehearsal.Shell.Tool
import RemoteObjects.Rehearsal.Shell.Words

/-!
# Running scripts

A command is run by a shell, which it may change and stop.  Whatever nests or repeats takes a unit
of fuel; a script that has used up all of it is taken to run for ever.
-/

namespace RemoteObjects.Rehearsal.Shell

open Launch (ExitStatus)

/-- Where the output of a command goes. -/
inductive Sink where
  | usual
  | nowhere
  /-- A place that takes nothing, so that to write there is a failure. -/
  | closed
  | file (path : String) (appending : Bool)

/-- Where a shell finds its script. -/
inductive Source where
  | text (script : List Char)
  | file (path : String)
  | input

/-- How a shell is started. -/
structure Invocation where
  source : Source
  zero : String
  parameters : List String
  strict : Bool
  careful : Bool

/-- What the words after the name of a shell ask for, after options that were read; nothing if they
are not understood. -/
def invocation? (name : String) : List Char → List String → Option Invocation
  | options, words =>
    let start (source : Source) (zero : String) (parameters : List String) : Invocation :=
      ⟨source, zero, parameters, 'e' ∈ options, 'u' ∈ options⟩
    let finish : List String → Option Invocation
      | [] => if 'c' ∈ options then none else some (start .input name [])
      | w :: rest =>
        if 'c' ∈ options then some (start (.text w.toList) (rest.headD name) (rest.drop 1))
        else if 's' ∈ options then some (start .input name (w :: rest))
        else some (start (.file w) w rest)
    match words with
    | [] => finish []
    | w :: rest =>
      match w.toList with
      | ['-'] | ['-', '-'] => finish rest
      | '-' :: letters =>
        if letters.all (· ∈ "ceuxsfvIabmC".toList) then invocation? name (letters ++ options) rest
        else none
      | _ => finish words

mutual

/-- Puts in the values of pieces, from the left to the right. -/
def expand (fuel : Nat) (pieces : List Piece) : Act (List Atom) :=
  match fuel with
  | 0 => throw .endless
  | fuel + 1 => do
    match pieces with
    | [] => return []
    | .text s quoted :: rest =>
      let atoms := s.toList.map (Atom.char · quoted false) ++ if quoted then [.mark] else []
      return atoms ++ (← expand fuel rest)
    | .parameter name use quoted :: rest =>
      let atoms ← parameter fuel name use quoted
      return atoms ++ (← expand fuel rest)
    | .output script quoted :: rest =>
      let atoms := Atom.ofValue quoted (← output fuel script)
      return atoms ++ (← expand fuel rest)
    | .sum expression quoted :: rest =>
      let text := String.ofList (Atom.text (← expand fuel expression))
      let some sum := Sum.ofString? text | Act.fault
      let p ← get
      let some (n, bindings) := (sum.eval).run p.bindings | Act.fault
      set { p with bindings := bindings }
      let atoms := Atom.ofValue quoted (toString n.toInt)
      return atoms ++ (← expand fuel rest)

/-- The text that a script writes, without the ends of lines at its end. -/
def output (fuel : Nat) (script : Command) : Act String :=
  match fuel with
  | 0 => throw .endless
  | fuel + 1 => do
    let p ← get
    set { p with written := "" }
    let status ← enclosed fuel script
    let text := (← get).written.toList.reverse.dropWhile (· = '\n')
    modify fun q ↦ { q with written := p.written, inner := some status }
    return String.ofList text.reverse

/-- What is put in for a parameter. -/
def parameter (fuel : Nat) (name : String) (use : Use) (quoted : Bool) : Act (List Atom) :=
  match fuel with
  | 0 => throw .endless
  | fuel + 1 => do
    let p ← get
    let value := p.value? name
    match use with
    | .value =>
      if name = "@" || (name = "*" && !quoted) then
        let words := p.parameters.map (Atom.ofValue quoted)
        return (words.intersperse [Atom.gap]).flatten
      if value.isNone && p.careful && name ≠ "*" then Act.fault
      return Atom.ofValue quoted (value.getD "")
    | .length =>
      if value.isNone && p.careful then Act.fault
      return Atom.ofValue quoted (toString (value.getD "").length)
    | .fallback orEmpty how word =>
      let there := value.any fun v ↦ !(orEmpty && v.isEmpty)
      match how with
      | .replace => if there then expand fuel word else return if quoted then [.mark] else []
      | .use => if there then parameter fuel name .value quoted else expand fuel word
      | .assign =>
        if there then parameter fuel name .value quoted
        else
          let text := String.ofList (Atom.text (← expand fuel word))
          if !Builtin.isVariable name then Act.fault
          Act.assign name text
          return Atom.ofValue quoted text
      | .fail => if there then parameter fuel name .value quoted else Act.fault
    | .trim atEnd longest pattern =>
      if value.isNone && p.careful then Act.fault
      let pattern := Atom.pattern (← expand fuel pattern)
      return Atom.ofValue quoted
        (String.ofList (pattern.trim atEnd longest (value.getD "").toList))
    | .bad => Act.fault

/-- The words that words make. -/
def expandWords (fuel : Nat) (words : List Word) : Act (List String) :=
  match fuel with
  | 0 => throw .endless
  | fuel + 1 => do
    match words with
    | [] => return []
    | w :: rest =>
      let atoms ← expand fuel w
      let first := Atom.fields (← get).separators none atoms
      return first ++ (← expandWords fuel rest)

/-- The text that a word makes where it does not fall apart. -/
def expandText (fuel : Nat) (w : Word) : Act String :=
  match fuel with
  | 0 => throw .endless
  | fuel + 1 => return String.ofList (Atom.text (← expand fuel w))

/-- Runs a command in a shell of its own and answers with its status. -/
def enclosed (fuel : Nat) (c : Command) : Act UInt8 :=
  match fuel with
  | 0 => throw .endless
  | fuel + 1 => do
    let p ← get
    set { p with
      depth := p.depth + 1
      loops := 0
      jobs := []
      traps := p.traps.filter (·.1 ≠ 0) }
    let result ← Act.attempt (concluded fuel (run fuel false c))
    let q ← get
    set { p with
      elapsed := q.elapsed
      written := q.written
      input := q.input
      files := q.files
      alarms := q.alarms }
    match result with
    | .error (.killed n) => throw (.killed n)
    | .error .endless => throw .endless
    | _ => return q.last

/-- Ends a shell: what was asked for its end is done. -/
def concluded (fuel : Nat) (body : Act Unit) : Act Unit :=
  match fuel with
  | 0 => throw .endless
  | fuel + 1 => do
    let result ← Act.attempt body
    match result with
    | .error (.killed n) => throw (.killed n)
    | .error .endless => throw .endless
    | _ =>
      let p ← get
      if let some action := p.traps.lookup 0 then
        set { p with traps := p.traps.filter (·.1 ≠ 0) }
        let result ← Act.attempt (runText fuel action.toList)
        match result with
        | .error (.killed n) => throw (.killed n)
        | .error .endless => throw .endless
        | .error .exited => pure ()
        | _ => Act.finish p.last

/-- Runs the lines of a text. -/
def runText (fuel : Nat) (text : List Char) : Act Unit :=
  match fuel with
  | 0 => throw .endless
  | fuel + 1 => do
    if text.isEmpty then return
    match nextLine (← get).aliases text with
    | none => Act.fault
    | some (c, rest) =>
      run fuel false c
      runText fuel rest

/-- Does what was asked for the signals that have come. -/
def heed (fuel : Nat) : Act Unit :=
  match fuel with
  | 0 => throw .endless
  | fuel + 1 => do
    let p ← get
    if p.depth = 0 then
      match p.alarms.find? fun a ↦ a.1 ≤ p.elapsed with
      | none => return
      | some (time, signal) =>
        set { p with alarms := p.alarms.erase (time, signal) }
        if p.fatal signal then throw (.killed signal)
        if let some action := p.traps.lookup signal then
          runText fuel action.toList
          Act.finish p.last
        heed fuel

/-- Runs a command.  A failure of one that is `tested` does not end a strict shell. -/
def run (fuel : Nat) (tested : Bool) (c : Command) : Act Unit :=
  match fuel with
  | 0 => throw .endless
  | fuel + 1 => do
    let judge : Act Unit := do
      heed fuel
      let p ← get
      if p.strict && !tested && p.last ≠ 0 then throw .exited
    if (← get).idle then return
    match c with
    | .nothing => return
    | .simple assignments words redirects =>
      simple fuel tested assignments words redirects
      judge
    | .sequence first second =>
      run fuel tested first
      run fuel tested second
    | .both first second =>
      run fuel true first
      if (← get).last = 0 then run fuel tested second
    | .either first second =>
      run fuel true first
      if (← get).last ≠ 0 then run fuel tested second
    | .negated c =>
      run fuel true c
      Act.finish (if (← get).last = 0 then 1 else 0)
    | .pipeline parts =>
      let p ← get
      set { p with written := "" }
      let (status, ended) ← piped fuel p.elapsed parts
      modify fun q ↦ { q with
        elapsed := max ended p.elapsed
        written := p.written ++ q.written
        input := p.input }
      Act.finish status
      judge
    | .background c =>
      let p ← get
      let result ← Act.attempt (enclosed fuel c)
      let q ← get
      let id := Process.ownId + 1 + p.jobs.length
      let (job, alarm) : Job × List (Nat × Nat) := match result with
        | .ok status => (⟨id, some q.elapsed, status⟩, [])
        | .error (.killed n) => (⟨id, some q.elapsed, 0⟩, [(q.elapsed, n)])
        | .error _ => (⟨id, none, 0⟩, [])
      set { q with
        elapsed := p.elapsed
        input := p.input
        depth := p.depth
        loops := p.loops
        traps := p.traps
        jobs := job :: p.jobs
        alarms := alarm ++ q.alarms }
      Act.finish 0
    | .subshell c =>
      Act.finish (← enclosed fuel c)
      modify fun q ↦ { q with alarms := q.childEnded }
      judge
    | .redirected c redirects =>
      redirecting fuel redirects (run fuel tested c) (Act.finish 2)
    | .choice condition body otherwise =>
      run fuel true condition
      if (← get).last = 0 then run fuel tested body
      else
        Act.finish 0
        run fuel tested otherwise
    | .loop negative condition body =>
      modify fun p ↦ { p with loops := p.loops + 1 }
      let result ← Act.attempt (looped fuel tested negative condition body 0)
      modify fun p ↦ { p with loops := p.loops - 1 }
      if let .error stop := result then throw stop
    | .each name words body =>
      let values ← match words with
        | some words => expandWords fuel words
        | none => pure (← get).parameters
      modify fun p ↦ { p with loops := p.loops + 1, last := 0 }
      let result ← Act.attempt (eachValue fuel tested name body values)
      modify fun p ↦ { p with loops := p.loops - 1 }
      if let .error stop := result then throw stop
    | .cases word branches =>
      let text ← expandText fuel word
      branched fuel tested text.toList branches
    | .function name body =>
      modify fun p ↦ { p with functions := (name, body) :: p.functions.filter (·.1 ≠ name) }
      Act.finish 0

/-- Runs the parts of a pipeline, which start together; answers with the last status and the time
when all have ended. -/
def piped (fuel : Nat) (start : Nat) (parts : List Command) : Act (UInt8 × Nat) :=
  match fuel with
  | 0 => throw .endless
  | fuel + 1 => do
    match parts with
    | [] => return (0, start)
    | c :: rest =>
      modify fun p ↦ { p with elapsed := start }
      let status ← enclosed fuel c
      let ended := (← get).elapsed
      if rest.isEmpty then return (status, ended)
      modify fun p ↦ { p with input := p.written.toList, written := "" }
      let (status, endedToo) ← piped fuel start rest
      return (status, max ended endedToo)

/-- Goes on after a body of a loop has been run; whether the loop does. -/
def inLoop (fuel : Nat) (body : Act Unit) : Act Bool :=
  match fuel with
  | 0 => throw .endless
  | _ + 1 => do
    let result ← Act.attempt body
    match result with
    | .ok _ => return true
    | .error (.broke n) => if n ≤ 1 then return false else throw (.broke (n - 1))
    | .error (.continued n) => if n ≤ 1 then return true else throw (.continued (n - 1))
    | .error stop => throw stop

/-- Runs a loop, whose body has last ended with a status. -/
def looped (fuel : Nat) (tested negative : Bool) (condition body : Command) (status : UInt8) :
    Act Unit :=
  match fuel with
  | 0 => throw .endless
  | fuel + 1 => do
    let tests ← inLoop fuel (run fuel true condition)
    if !tests then
      Act.finish 0
      return
    if ((← get).last = 0) = negative then Act.finish status
    else
      let more ← inLoop fuel (run fuel tested body)
      if more then looped fuel tested negative condition body (← get).last else Act.finish 0

/-- Runs the body of a loop with each of some values. -/
def eachValue (fuel : Nat) (tested : Bool) (name : String) (body : Command) (values : List String) :
    Act Unit :=
  match fuel with
  | 0 => throw .endless
  | fuel + 1 => do
    match values with
    | [] => return
    | v :: rest =>
      Act.assign name v
      let more ← inLoop fuel (run fuel tested body)
      if more then eachValue fuel tested name body rest else Act.finish 0

/-- Runs the first branch one of whose patterns stands for the text. -/
def branched (fuel : Nat) (tested : Bool) (text : List Char)
    (branches : List (List Word × Command)) : Act Unit :=
  match fuel with
  | 0 => throw .endless
  | fuel + 1 => do
    match branches with
    | [] => Act.finish 0
    | (patterns, body) :: rest =>
      if ← anyHolds fuel text patterns then
        Act.finish 0
        run fuel tested body
      else branched fuel tested text rest

def anyHolds (fuel : Nat) (text : List Char) (patterns : List Word) : Act Bool :=
  match fuel with
  | 0 => throw .endless
  | fuel + 1 => do
    match patterns with
    | [] => return false
    | w :: rest =>
      if (Atom.pattern (← expand fuel w)).holds text then return true
      anyHolds fuel text rest

/-- Finds where redirections lead and sets the input; nothing if one of them fails. -/
def sinkOf (fuel : Nat) (sink : Sink) (redirects : List Redirect) : Act (Option Sink) :=
  match fuel with
  | 0 => throw .endless
  | fuel + 1 => do
    match redirects with
    | [] => return some sink
    | .mk number channel word :: rest =>
      let text ← expandText fuel word
      let p ← get
      match channel with
      | .inline =>
        set { p with input := text.toList }
        sinkOf fuel sink rest
      | .source =>
        match p.content? text with
        | some content =>
          set { p with input := content.toList }
          sinkOf fuel sink rest
        | none => return none
      | .target | .appending =>
        if !p.writable text then return none
        let here : Sink :=
          if text = "/dev/full" then .closed
          else if text ∈ devices then .nowhere
          else .file text (channel = .appending)
        sinkOf fuel (if number = 1 then here else sink) rest
      | .joined =>
        if text ∉ ["-", "0", "1", "2"] then return none
        let here : Sink := if text = "-" then .closed else .nowhere
        sinkOf fuel (if number = 1 && text ≠ "1" then here else sink) rest

/-- Runs an act with its input and output led elsewhere, or does what a failure asks for. -/
def redirecting (fuel : Nat) (redirects : List Redirect) (act failed : Act Unit) : Act Unit :=
  match fuel with
  | 0 => throw .endless
  | fuel + 1 => do
    if redirects.isEmpty then return ← act
    let p ← get
    match ← sinkOf fuel .usual redirects with
    | none =>
      modify fun q ↦ { q with input := p.input }
      failed
    | some .usual => act
    | some sink =>
      modify fun q ↦ { q with written := "" }
      let result ← Act.attempt act
      let q ← get
      let files := match sink with
        | .file path appending =>
          let before := if appending then (p.files.lookup path).getD "" else ""
          (path, before ++ q.written) :: q.files.filter (·.1 ≠ path)
        | _ => q.files
      let last := match sink with
        | .closed => if q.written.isEmpty then q.last else 1
        | _ => q.last
      set { q with written := p.written, input := p.input, files := files, last := last }
      if let .error stop := result then throw stop

/-- Runs a simple command.  The words are put in before the assignments are made, which last only as
long as a command that is not special. -/
def simple (fuel : Nat) (tested : Bool) (assignments : List (String × Word)) (words : List Word)
    (redirects : List Redirect) : Act Unit :=
  match fuel with
  | 0 => throw .endless
  | fuel + 1 => do
    modify fun p ↦ { p with inner := none }
    let words ← expandWords fuel words
    match words with
    | [] =>
      redirecting fuel redirects (return) (Act.finish 2)
      if redirects.isEmpty || (← get).last ≠ 2 then
        let values ← assigned fuel assignments
        for (name, value) in values do
          Act.assign name value
        Act.finish ((← get).inner.getD 0)
    | name :: arguments =>
      let values ← assigned fuel assignments
      let special := name ∈ Parser.special && ((← get).functions.lookup name).isNone
      let before ← get
      for (name, value) in values do
        Act.assign name value
      modify fun p ↦ { p with exported := values.map Prod.fst ++ p.exported }
      let restore : Act Unit :=
        if values.isEmpty || special then return
        else modify fun p ↦ { p with
          bindings := values.foldl
            (fun vs v ↦ Process.restore vs v.1 (before.bindings.lookup v.1)) p.bindings
          exported := before.exported }
      let failed : Act Unit := if special && name ≠ "exec" then Act.fault else Act.finish 2
      let failed := if name = "exec" then Act.fault else failed
      let result ← Act.attempt
        (redirecting fuel redirects (perform fuel tested true name arguments) failed)
      restore
      if let .error stop := result then throw stop

/-- The values of assignments; later ones see the earlier ones. -/
def assigned (fuel : Nat) (assignments : List (String × Word)) : Act (List (String × String)) :=
  match fuel with
  | 0 => throw .endless
  | fuel + 1 => do
    match assignments with
    | [] => return []
    | (name, word) :: rest =>
      let text ← expandText fuel word
      let p ← get
      if name ∈ p.fixed then Act.fault
      let old := p.bindings.lookup name
      set { p with bindings := p.bindings.set name text }
      let others ← assigned fuel rest
      modify fun q ↦ { q with bindings := Process.restore q.bindings name old }
      return (name, text) :: others

/-- Runs what a name stands for. -/
def perform (fuel : Nat) (tested functions : Bool) (name : String) (words : List String) :
    Act Unit :=
  match fuel with
  | 0 => throw .endless
  | fuel + 1 => do
    let p ← get
    match if functions then p.functions.lookup name else none with
    | some body =>
      if Process.greatestDepth ≤ p.calls then Act.fault
      set { p with
        parameters := words
        locals := some []
        calls := p.calls + 1
        loops := 0
        place := .start }
      let result ← Act.attempt (run fuel tested body)
      let q ← get
      let bindings :=
        (q.locals.getD []).foldl (fun vs v ↦ Process.restore vs v.1 v.2) q.bindings
      set { q with
        parameters := p.parameters
        locals := p.locals
        calls := p.calls
        loops := p.loops
        place := p.place
        bindings := bindings }
      match result with
      | .ok _ | .error .returned => return
      | .error stop => throw stop
    | none =>
      match name, words with
      | "eval", words => runText fuel (" ".intercalate words).toList
      | ".", path :: _ =>
        match p.content? path with
        | some text => runText fuel text.toList
        | none => Act.fault
      | "exec", [] => Act.finish 0
      | "exec", name :: words =>
        match ← program fuel name words with
        | some (.signal n) => throw (.killed n)
        | some (.code n) =>
          Act.finish n
          modify fun p ↦ { p with traps := [] }
          throw .exited
        | none =>
          Act.finish (if (p.kind? name).isSome && name.contains '/' then 126 else 127)
          throw .exited
      | "command", option :: words =>
        if option = "-v" || option = "-V" then
          Act.finish (← Builtin.mentions (option = "-V") (words.take 1))
        else
          let all := if option = "-p" || option = "--" then words else option :: words
          match all with
          | [] => Act.finish 0
          | name :: words => perform fuel tested false name words
      | "command", [] => Act.finish 0
      | name, words =>
        match Builtin.plain? name words with
        | some act =>
          let result ← Act.attempt act
          match result with
          | .ok status => Act.finish status
          | .error stop =>
            let mild := match stop with
              | .exited => name ∉ Parser.special
              | _ => false
            if !mild then throw stop
        | none =>
          match ← program fuel name words with
          | some status =>
            Act.finish (Process.statusOf status)
            modify fun q ↦ { q with alarms := q.childEnded }
          | none =>
            Act.finish (if (p.kind? name).isSome && name.contains '/' then 126 else 127)

/-- Runs a program to its end; nothing if there is none of that name. -/
def program (fuel : Nat) (name : String) (words : List String) : Act (Option ExitStatus) :=
  match fuel with
  | 0 => throw .endless
  | fuel + 1 => do
    match program? (← get).searched name with
    | none => return none
    | some known =>
      if known ∈ ["sh", "dash", "bash"] then return some (← shell fuel name words)
      else if known = "env" then return some (← surrounded fuel words)
      else if known = "timeout" then return some (← limited fuel words)
      else if known ∈ ["nohup", "nice", "setsid"] then
        match words with
        | [] => return some (.code (if known = "nice" then 0 else refusal known))
        | name :: words =>
          let (name, words) := match known, name, words with
            | "nice", "-n", _ :: name :: words => (name, words)
            | _, _, _ => (name, words)
          if name.startsWith "-" then return some (.code (refusal known))
          return some ((← program fuel name words).getD (.code 127))
      else
        let result ← Act.attempt (Tool.run known words)
        match result with
        | .ok n => return some (.code n)
        | .error .exited => return some (.code (← get).last)
        | .error stop => throw stop

/-- Runs a program with some variables set, or writes the variables if it is given none. -/
def surrounded (fuel : Nat) (words : List String) : Act ExitStatus :=
  match fuel with
  | 0 => throw .endless
  | fuel + 1 => do
    let options := words.takeWhile fun w ↦ w = "-i" || w = "--"
    let rest := words.drop options.length
    let settings := rest.takeWhile (·.contains '=')
    let p ← get
    if "-i" ∈ options then set { p with exported := [] }
    for s in settings do
      if let (name, some value) := Builtin.declaration s then
        modify fun q ↦ { q with
          bindings := q.bindings.set name value
          exported := name :: q.exported }
    let status ← match rest.drop settings.length with
      | [] => do
        for (name, value) in (← get).environment do
          Act.write (name ++ "=" ++ value ++ "\n")
        pure (some (.code 0))
      | name :: words =>
        if name.startsWith "-" then pure (some (.code (refusal "env")))
        else program fuel name words
    modify fun q ↦ { q with bindings := p.bindings, exported := p.exported }
    return status.getD (.code 127)

/-- Runs a program that is stopped when some time has passed. -/
def limited (fuel : Nat) (words : List String) : Act ExitStatus :=
  match fuel with
  | 0 => throw .endless
  | fuel + 1 => do
    let some (options, words) := OptionFound.ofWords? "k:s:v" words
      | return .code (refusal "timeout")
    match words with
    | limit :: name :: words =>
      match Tool.duration? limit with
      | none => return .code (refusal "timeout")
      | some .endless => return (← program fuel name words).getD (.code 127)
      | some (.finite ms) =>
        let p ← get
        let result ← Act.attempt (program fuel name words)
        let late := 0 < ms && p.elapsed + ms < (← get).elapsed
        let stopped : Act ExitStatus := do
          modify fun q ↦ { q with elapsed := p.elapsed + ms }
          return .code (if (options.lookup 's').bind (signal? 1) = some 9 then 137 else 124)
        match result with
        | .ok status => if late then stopped else return status.getD (.code 127)
        | .error .endless => if 0 < ms then stopped else throw .endless
        | .error stop => throw stop
    | _ => return .code (refusal "timeout")

/-- Runs a shell as a program. -/
def shell (fuel : Nat) (name : String) (words : List String) : Act ExitStatus :=
  match fuel with
  | 0 => throw .endless
  | fuel + 1 => do
    let p ← get
    match invocation? name [] words with
    | none => return .code 2
    | some i =>
      let (text, input) := match i.source with
        | .text script => (some script, p.input)
        | .file path => ((p.content? path).map String.toList, p.input)
        | .input => (some p.input, [])
      match text with
      | none => return .code 2
      | some text =>
        let inner := Process.start i.zero i.parameters p.elapsed
        let inner := { inner with
          bindings := inner.bindings.filter (·.1 ∉ inner.exported) ++ p.environment
          exported := p.exported
          written := p.written
          input := input
          files := p.files
          strict := i.strict
          careful := i.careful }
        let (result, q) := (concluded fuel (runText fuel text)).run inner
        set { p with
          elapsed := q.elapsed
          written := q.written
          input := q.input
          files := q.files }
        match result with
        | .error (.killed n) => return .signal n
        | .error .endless => throw .endless
        | _ => return .code q.last

end

end RemoteObjects.Rehearsal.Shell
