import RemoteObjects.Rehearsal.Shell.Builtin
import RemoteObjects.Rehearsal.Shell.Expression
import RemoteObjects.Rehearsal.Shell.Filter
import RemoteObjects.Rehearsal.Shell.Pattern

/-!
# Programs

The programs of the machine, as far as scripts depend on them: what they read and write, and how
they end.
-/

namespace RemoteObjects.Rehearsal.Shell.Tool

inductive Duration where
  | finite (ms : Nat)
  | endless

/-- The time that a word like `1.5m` means. -/
def duration? (s : String) : Option Duration :=
  let (digits, unit) : List Char × Nat := match s.toList.reverse with
    | 's' :: rest => (rest.reverse, 1000)
    | 'm' :: rest => (rest.reverse, 60_000)
    | 'h' :: rest => (rest.reverse, 3_600_000)
    | 'd' :: rest => (rest.reverse, 86_400_000)
    | _ => (s.toList, 1000)
  let whole := digits.takeWhile Char.isDigit
  let rest := digits.drop whole.length
  let fraction := rest.drop 1
  if s = "inf" || s = "infinity" then some .endless
  else if (whole.isEmpty && fraction.isEmpty) || !fraction.all Char.isDigit ||
      !(rest.isEmpty || rest.head? = some '.') then none
  else
    let value (digits : List Char) : Nat := digits.foldl (fun n c ↦ n * 10 + (c.toNat - 48)) 0
    some (.finite (value whole * unit + value fraction * unit / Nat.pow 10 fraction.length))

def sleep (words : List String) : Act UInt8 := do
  if words.isEmpty || words.any (·.startsWith "-") then
    return if words ∈ [["--help"], ["--version"]] then 0 else 1
  match words.mapM duration? with
  | none => return 1
  | some times =>
    for time in times do
      match time with
      | .finite ms => pass ms
      | .endless => throw .endless
    return 0

/-- The contents of files, or of the input if there are none. -/
def contents (paths : List String) : Act (Option (List Char)) := do
  let p ← get
  if paths.isEmpty then
    set { p with input := [] }
    return some p.input
  return (paths.mapM p.content?).map fun texts ↦ (String.join texts).toList

def cat (paths : List String) : Act UInt8 := do
  match ← contents paths with
  | some text =>
    Act.write (String.ofList text)
    return 0
  | none => return 1

def seq (words : List String) : Act UInt8 := do
  let range : Option (Int × Int × Int) := match words.map Test.number? with
    | [some last] => some (1, 1, last)
    | [some first, some last] => some (first, 1, last)
    | [some first, some step, some last] => some (first, step, last)
    | _ => none
  match range with
  | none => return 1
  | some (_, 0, _) => return 1
  | some (first, step, last) =>
    let count := if 0 < step then last - first else first - last
    if 0 ≤ count then
      for i in List.range (min (count.natAbs / step.natAbs) 100000 + 1) do
        Act.write (toString (first + step * i) ++ "\n")
    return 0

def expr (words : List String) : Act UInt8 := do
  match Expression.value? words with
  | some value =>
    Act.write (value ++ "\n")
    return if Expression.isNull value then 1 else 0
  | none => return 2

/-- Whether a pattern of plain characters, with marks for the ends of a line, occurs in a line. -/
def occurs (pattern line : String) : Bool :=
  let text := pattern.toList
  let (atStart, text) := match text with
    | '^' :: rest => (true, rest)
    | rest => (false, rest)
  let (atEnd, text) := match text.reverse with
    | '$' :: rest => (true, rest.reverse)
    | _ => (false, text)
  let glyphs : Pattern := text.map fun c ↦ if c = '.' then .anyOne else .literal c
  let glyphs := if atStart then glyphs else .anyText :: glyphs
  Pattern.holds (if atEnd then glyphs else glyphs ++ [.anyText]) line.toList

def grep (words : List String) : Act UInt8 := do
  let options := words.takeWhile fun w ↦ w.startsWith "-" && w ≠ "--"
  let rest := words.drop options.length
  let rest := if rest.head? = some "--" then rest.drop 1 else rest
  let letters := options.flatMap fun w ↦ w.toList.drop 1
  if options.any (·.startsWith "--") || !letters.all (· ∈ "qvcFExis".toList) then return 2
  match rest with
  | [] => return 2
  | pattern :: paths =>
    match ← contents paths with
    | none => return 2
    | some text =>
      let pattern := if 'x' ∈ letters then "^" ++ pattern ++ "$" else pattern
      let cased (s : String) : String := if 'i' ∈ letters then s.map Char.toLower else s
      let fits (l : String) : Bool := occurs (cased pattern) (cased l) != ('v' ∈ letters)
      let found := (Filter.lines text).filter fits
      if 'c' ∈ letters then Act.write (toString found.length ++ "\n")
      else if 'q' ∉ letters then
        for l in found do
          Act.write (l ++ "\n")
      return if found.isEmpty then 1 else 0

def wc (words : List String) : Act UInt8 := do
  let options := words.filter (·.startsWith "-")
  match ← contents (words.filter (!·.startsWith "-")) with
  | none => return 1
  | some text =>
    let blank (c : Char) : Bool := c = ' ' || c = '\n' || c = '\t'
    let spaced := String.ofList (text.map fun c ↦ if blank c then ' ' else c)
    let count := match options with
      | ["-l"] => some (text.filter (· = '\n')).length
      | ["-w"] => some ((spaced.splitOn " ").filter (· ≠ "")).length
      | ["-c"] => some (String.ofList text).utf8ByteSize
      | ["-m"] => some text.length
      | _ => none
    match count with
    | some n =>
      Act.write (toString n ++ "\n")
      return 0
    | none => return if options.isEmpty then 0 else 1

/-- Runs a filter. -/
def filter (name : String) (filter : Option (Filter × List String)) : Act UInt8 := do
  match filter with
  | none => return refusal name
  | some (f, paths) =>
    match ← contents paths with
    | none => return refusal name
    | some text =>
      Act.write (String.ofList (f text))
      return 0

/-- Writes the input and keeps it in files. -/
def tee (words : List String) : Act UInt8 := do
  let paths := words.filter (!·.startsWith "-")
  let text := String.ofList ((← contents []).getD [])
  Act.write text
  let p ← get
  let kept := paths.filter fun path ↦ p.writable path && path ∉ devices
  let others := p.files.filter fun f ↦ f.1 ∉ kept
  set { p with files := kept.map (·, text) ++ others }
  return if paths.all p.writable then 0 else 1

/-- Programs that refuse no option, or look at each by themselves. -/
def indifferent : List String := ["echo", "printf", "true", "false", "sleep", "grep"]

/-- Programs that only need their words. -/
def run (name : String) (words : List String) : Act UInt8 := do
  if words.any (fun w ↦ w.startsWith "--" && w ≠ "--") && name ∉ indifferent then
    return refusal name
  match name with
  | "sleep" => sleep words
  | "cat" => cat (words.filter (· ≠ "-"))
  | "seq" => seq words
  | "expr" => expr words
  | "grep" => grep words
  | "wc" => wc words
  | "tee" => tee words
  | "false" => return 1
  | "yes" => throw .endless
  | "basename" => do
    match words with
    | [] => return 1
    | path :: suffix =>
      let last := (splitPath (Process.tidy path)).2
      let suffix := suffix.headD ""
      let short := if last.endsWith suffix && last ≠ suffix then
          String.ofList (last.toList.take (last.length - suffix.length)) else last
      Act.write (short ++ "\n")
      return 0
  | "dirname" => do
    match words with
    | [] => return 1
    | path :: _ =>
      Act.write ((splitPath (Process.tidy path)).1 ++ "\n")
      return 0
  | "ls" => do
    let p ← get
    return if words.all fun w ↦ w.startsWith "-" || (p.kind? w).isSome then 0 else 2
  | "rm" => do
    let p ← get
    let paths := words.filter (!·.startsWith "-")
    set { p with files := p.files.filter (·.1 ∉ paths) }
    let forced := words.any fun w ↦ w.startsWith "-" && w.contains 'f'
    return if forced || paths.all fun path ↦ (p.kind? path).isSome then 0 else 1
  | "touch" => do
    let p ← get
    if words.isEmpty || !words.all p.writable then return 1
    set { p with files := words.map (·, "") ++ p.files }
    return 0
  | "mkdir" => do
    let p ← get
    return if words.all fun w ↦ w = "-p" || (p.writable w && (p.kind? w).isNone) then 0 else 1
  | "id" | "whoami" | "hostname" | "uname" | "date" => do
    Act.write (if name = "id" && words = ["-u"] then "0\n" else "root\n")
    return 0
  | "which" => do
    let p ← get
    return if words.all fun w ↦ (program? p.searched w).isSome then 0 else 1
  | name =>
    if name = "tail" && words.any fun w ↦ w = "-f" || w = "-F" then throw .endless
    match Filter.ofName? name words, Builtin.plain? name words with
    | some f, _ => filter name f
    | none, some act => act
    | none, none => return 0

end RemoteObjects.Rehearsal.Shell.Tool
