/-!
# Arithmetic in scripts

Expressions over 64-bit numbers and variables, whose values are numbers written as texts.  Sums wrap
around; what a condition leaves out is not looked at.
-/

namespace RemoteObjects.Rehearsal.Shell

/-- The variables of a shell and their values. -/
abbrev Variables : Type := List (String × String)

def Variables.set (bindings : Variables) (name value : String) : Variables :=
  (name, value) :: bindings.filter (·.1 ≠ name)

inductive Sum where
  | number (n : Int64)
  | variable (name : String)
  | unary (sign : String) (a : Sum)
  | binary (sign : String) (a b : Sum)
  | both (a b : Sum)
  | either (a b : Sum)
  | choice (condition a b : Sum)
  | assign (name : String) (a : Sum)

namespace Sum

inductive Token where
  | number (n : Int64)
  | name (s : String)
  | sign (s : String)
  deriving DecidableEq

/-- The value of a digit in a base of at most sixteen. -/
def digit? (base : Nat) (c : Char) : Option Nat :=
  let d := if c.isDigit then c.toNat - 48 else if 'a' ≤ c ∧ c ≤ 'f' then c.toNat - 87
    else if 'A' ≤ c ∧ c ≤ 'F' then c.toNat - 55 else base
  if d < base then some d else none

/-- The number at the front of a text, which is hexadecimal after `0x` and octal after a zero. -/
def natural (text : List Char) : Nat × List Char :=
  let (base, digits) := match text with
    | '0' :: x :: d :: rest =>
      if (x = 'x' ∨ x = 'X') ∧ (digit? 16 d).isSome then (16, d :: rest) else (8, text)
    | '0' :: _ => (8, text)
    | _ => (10, text)
  let read := digits.takeWhile fun c ↦ (digit? base c).isSome
  let n := read.foldl (fun n c ↦ n * base + (digit? base c).getD 0) 0
  (n, digits.drop read.length)

/-- The 64-bit number at the front of a text; one that is too large is the largest. -/
def numeral (text : List Char) : Int64 × List Char :=
  let (n, rest) := natural text
  (.ofNat (min n 0x7fffffffffffffff), rest)

def signs : List String :=
  ["<<=", ">>=", "==", "!=", "<=", ">=", "&&", "||", "<<", ">>", "+=", "-=", "*=", "/=", "%=", "&=",
    "|=", "^=", "+", "-", "*", "/", "%", "<", ">", "=", "!", "~", "&", "|", "^", "?", ":", "(", ")"]

def tokens : Nat → List Char → Option (List Token)
  | 0, _ => none
  | _, [] => some []
  | fuel + 1, c :: rest =>
    let text := c :: rest
    if c ∈ [' ', '\t', '\n'] then tokens fuel rest
    else if c.isDigit then
      let (n, rest) := numeral text
      (tokens fuel rest).map (.number n :: ·)
    else if c.isAlpha || c == '_' then
      let name := text.takeWhile fun c ↦ c.isAlphanum || c == '_'
      (tokens fuel (text.drop name.length)).map (.name (String.ofList name) :: ·)
    else do
      let sign ← signs.find? fun s ↦ s.toList.isPrefixOf text
      (tokens fuel (text.drop sign.length)).map (.sign sign :: ·)

/-- How tightly a sign binds. -/
def rank? : String → Option Nat
  | "||" => some 1
  | "&&" => some 2
  | "|" => some 3
  | "^" => some 4
  | "&" => some 5
  | "==" | "!=" => some 6
  | "<" | ">" | "<=" | ">=" => some 7
  | "<<" | ">>" => some 8
  | "+" | "-" => some 9
  | "*" | "/" | "%" => some 10
  | _ => none

def join (sign : String) (a b : Sum) : Sum :=
  if sign = "&&" then .both a b else if sign = "||" then .either a b else .binary sign a b

mutual

def parse (fuel : Nat) (tokens : List Token) : Option (Sum × List Token) :=
  match fuel with
  | 0 => none
  | fuel + 1 =>
    let conditional := do
      let (a, rest) ← operand fuel tokens
      let (a, rest) ← joined fuel 1 a rest
      match rest with
      | .sign "?" :: rest =>
        let (b, rest) ← parse fuel rest
        match rest with
        | .sign ":" :: rest =>
          let (c, rest) ← parse fuel rest
          some (.choice a b c, rest)
        | _ => none
      | rest => some (a, rest)
    match tokens with
    | .name x :: .sign s :: rest =>
      if s = "=" then do
        let (a, rest) ← parse fuel rest
        some (.assign x a, rest)
      else if s.endsWith "=" ∧ s ∉ ["==", "!=", "<=", ">="] then do
        let (a, rest) ← parse fuel rest
        some (.assign x (.binary (String.ofList s.toList.dropLast) (.variable x) a), rest)
      else conditional
    | _ => conditional

/-- What an expression goes on with that binds at least so tightly. -/
def joined (fuel rank : Nat) (a : Sum) (tokens : List Token) : Option (Sum × List Token) :=
  match fuel with
  | 0 => none
  | fuel + 1 =>
    match tokens with
    | .sign s :: rest =>
      match rank? s with
      | some r =>
        if r < rank then some (a, tokens)
        else do
          let (b, rest) ← operand fuel rest
          let (b, rest) ← joined fuel (r + 1) b rest
          joined fuel rank (join s a b) rest
      | none => some (a, tokens)
    | _ => some (a, tokens)

def operand (fuel : Nat) (tokens : List Token) : Option (Sum × List Token) :=
  match fuel with
  | 0 => none
  | fuel + 1 =>
    match tokens with
    | .number n :: rest => some (.number n, rest)
    | .name x :: rest => some (.variable x, rest)
    | .sign "(" :: rest => do
      let (a, rest) ← parse fuel rest
      match rest with
      | .sign ")" :: rest => some (a, rest)
      | _ => none
    | .sign s :: rest =>
      if s ∈ ["-", "+", "!", "~"] then do
        let (a, rest) ← operand fuel rest
        some (.unary s a, rest)
      else none
    | [] => none

end

/-- The expression that a text spells. -/
def ofString? (s : String) : Option Sum := do
  let tokens ← tokens (s.length + 1) s.toList
  match ← parse (4 * tokens.length + 16) tokens with
  | (a, []) => some a
  | _ => none

/-- The number that the value of a variable spells. -/
def number? (s : String) : Option Int64 :=
  let isBlank (c : Char) : Bool := c = ' ' || c = '\t' || c = '\n'
  let text := s.toList.dropWhile isBlank
  let (negative, digits) := match text with
    | '-' :: rest => (true, rest)
    | '+' :: rest => (false, rest)
    | rest => (false, rest)
  if s.isEmpty then some 0
  else
    let (n, rest) := numeral digits
    if digits.head?.any Char.isDigit ∧ rest.all isBlank then some (if negative then -n else n)
    else none

def ofBool (b : Bool) : Int64 := if b then 1 else 0

def compute? (sign : String) (a b : Int64) : Option Int64 :=
  match sign with
  | "+" => some (a + b)
  | "-" => some (a - b)
  | "*" => some (a * b)
  | "/" => if b = 0 then none else some (a / b)
  | "%" => if b = 0 then none else some (a % b)
  | "<<" => some (a <<< b)
  | ">>" => some (a >>> b)
  | "&" => some (a &&& b)
  | "|" => some (a ||| b)
  | "^" => some (a ^^^ b)
  | "==" => some (ofBool (a == b))
  | "!=" => some (ofBool (a != b))
  | "<" => some (ofBool (a < b))
  | ">" => some (ofBool (b < a))
  | "<=" => some (ofBool (a ≤ b))
  | ">=" => some (ofBool (b ≤ a))
  | _ => none

/-- The value of an expression and the variables after its assignments. -/
def eval : Sum → StateT Variables Option Int64
  | .number n => return n
  | .variable x => do number? (((← get).lookup x).getD "")
  | .unary sign a => do
    let n ← eval a
    return match sign with
      | "-" => -n
      | "!" => ofBool (n == 0)
      | "~" => ~~~n
      | _ => n
  | .binary sign a b => do
    let m ← eval a
    let n ← eval b
    compute? sign m n
  | .both a b => do
    if (← eval a) = 0 then return 0
    return ofBool ((← eval b) != 0)
  | .either a b => do
    if (← eval a) ≠ 0 then return 1
    return ofBool ((← eval b) != 0)
  | .choice c a b => do
    if (← eval c) ≠ 0 then eval a else eval b
  | .assign x a => do
    let n ← eval a
    modify fun bindings ↦ bindings.set x (toString n.toInt)
    return n

end Sum

end RemoteObjects.Rehearsal.Shell
