import RemoteObjects.Rehearsal.Shell.Process

/-!
# Conditions on texts, numbers and files

The conditions of the command `test`.  Nothing is the answer to a condition that is not well-formed.
-/

namespace RemoteObjects.Rehearsal.Shell.Test

/-- A decimal number with blanks around it. -/
def number? (s : String) : Option Int :=
  let isBlank (c : Char) : Bool := c = ' ' || c = '\t' || c = '\n'
  let text := ((s.toList.dropWhile isBlank).reverse.dropWhile isBlank).reverse
  let (negative, digits) := match text with
    | '-' :: rest => (true, rest)
    | '+' :: rest => (false, rest)
    | rest => (false, rest)
  if digits.isEmpty || !digits.all Char.isDigit then none
  else
    let n : Int := digits.foldl (fun n c ↦ n * 10 + (c.toNat - 48)) 0
    let n := if negative then -n else n
    if -0x8000000000000000 ≤ n ∧ n ≤ 0x7fffffffffffffff then some n else none

def unaries : List String :=
  ["-b", "-c", "-d", "-e", "-f", "-g", "-G", "-h", "-k", "-L", "-n", "-O", "-p", "-r", "-s", "-S",
    "-t", "-u", "-w", "-x", "-z"]

def binaries : List String :=
  ["=", "!=", "<", ">", "-eq", "-ne", "-gt", "-ge", "-lt", "-le", "-nt", "-ot", "-ef"]

def unary (p : Process) (sign s : String) : Bool :=
  match sign with
  | "-n" => !s.isEmpty
  | "-z" => s.isEmpty
  | "-d" => p.kind? s = some .directory
  | "-f" => p.kind? s = some .file
  | "-c" => p.kind? s = some .device
  | "-e" | "-r" | "-w" | "-O" | "-G" => (p.kind? s).isSome
  | "-s" => match p.files.lookup s with
    | some text => !text.isEmpty
    | none => p.kind? s = some .directory || p.kind? s = some .file
  | "-x" => p.kind? s = some .directory || (program? [] s).isSome
  | _ => false

def binary? (p : Process) (sign a b : String) : Option Bool :=
  let numbers (f : Int → Int → Bool) : Option Bool := do
    let m ← number? a
    let n ← number? b
    return f m n
  match sign with
  | "=" => some (a == b)
  | "!=" => some (a != b)
  | "<" => some (a < b)
  | ">" => some (b < a)
  | "-eq" => numbers (· == ·)
  | "-ne" => numbers (· != ·)
  | "-gt" => numbers fun m n ↦ n < m
  | "-ge" => numbers fun m n ↦ n ≤ m
  | "-lt" => numbers fun m n ↦ m < n
  | "-le" => numbers fun m n ↦ m ≤ n
  | "-ef" => some (a == b && (p.kind? a).isSome)
  | _ => some false

/-- Whether the first of the words is meant as itself although it is the name of a condition. -/
def isOperand : List String → Bool
  | [] | [_] => true
  | [_, _] => false
  | _ :: next :: _ => next ∈ binaries

mutual

def either (p : Process) (fuel : Nat) (words : List String) : Option (Bool × List String) :=
  match fuel with
  | 0 => none
  | fuel + 1 => do
    match ← both p fuel words with
    | (a, "-o" :: rest) =>
      let (b, rest) ← either p fuel rest
      return (a || b, rest)
    | result => return result

def both (p : Process) (fuel : Nat) (words : List String) : Option (Bool × List String) :=
  match fuel with
  | 0 => none
  | fuel + 1 => do
    match ← single p fuel words with
    | (a, "-a" :: rest) =>
      let (b, rest) ← both p fuel rest
      return (a && b, rest)
    | result => return result

def single (p : Process) (fuel : Nat) (words : List String) : Option (Bool × List String) :=
  match fuel with
  | 0 => none
  | fuel + 1 =>
    match words with
    | [] => some (false, [])
    | "!" :: next :: rest => do
      if isOperand words then return ← plain p words
      let (a, rest) ← single p fuel (next :: rest)
      return (!a, rest)
    | "(" :: next :: rest => do
      let (a, rest) ← either p fuel (next :: rest)
      match rest with
      | ")" :: rest => return (a, rest)
      | _ => none
    | sign :: s :: rest =>
      if sign ∈ unaries && !isOperand words then some (unary p sign s, rest) else plain p words
    | words => plain p words

/-- A comparison, or a text that holds if it has characters. -/
def plain (p : Process) (words : List String) : Option (Bool × List String) :=
  match words with
  | a :: sign :: b :: rest =>
    if sign ∈ binaries then (binary? p sign a b).map (·, rest)
    else some (!a.isEmpty, sign :: b :: rest)
  | [a, sign] => if sign ∈ binaries then none else some (!a.isEmpty, [sign])
  | [a] => some (!a.isEmpty, [])
  | [] => some (false, [])

end

/-- The status of a test of so many words. -/
def status (p : Process) (words : List String) : UInt8 :=
  let result := match words with
    | [a, sign, b] => if sign ∈ binaries then (binary? p sign a b).map (·, []) else
      if a = "(" && b = ")" then some (!sign.isEmpty, []) else either p 16 words
    | words => either p (4 * words.length + 16) words
  match result with
  | some (true, []) => 0
  | some (false, []) => 1
  | _ => 2

end RemoteObjects.Rehearsal.Shell.Test
