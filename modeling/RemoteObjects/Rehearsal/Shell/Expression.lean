import RemoteObjects.Rehearsal.Shell.Test

/-!
# Expressions in words

Expressions over integers and texts whose signs are words of their own.
-/

namespace RemoteObjects.Rehearsal.Shell.Expression

def ofBool (b : Bool) : String := if b then "1" else "0"

/-- Whether a value counts as false. -/
def isNull (s : String) : Bool := s.isEmpty || Test.number? s = some 0

def compare (integers : Int → Int → Bool) (texts : String → String → Bool) (a b : String) :
    String :=
  ofBool <| match Test.number? a, Test.number? b with
    | some m, some n => integers m n
    | _, _ => texts a b

/-- The value of a sign between two values; nothing if they do not suit it. -/
def join? (sign a b : String) : Option String :=
  let compute (f : Int → Int → Option Int) : Option String := do
    return toString (← f (← Test.number? a) (← Test.number? b))
  match sign with
  | "|" => some (if !isNull a then a else if !isNull b then b else "0")
  | "&" => some (if isNull a || isNull b then "0" else a)
  | "=" | "==" => some (compare (· == ·) (· == ·) a b)
  | "!=" => some (compare (· != ·) (· != ·) a b)
  | "<" => some (compare (· < ·) (· < ·) a b)
  | "<=" => some (compare (· ≤ ·) (· ≤ ·) a b)
  | ">" => some (compare (· > ·) (· > ·) a b)
  | ">=" => some (compare (· ≥ ·) (· ≥ ·) a b)
  | "+" => compute fun m n ↦ some (m + n)
  | "-" => compute fun m n ↦ some (m - n)
  | "*" => compute fun m n ↦ some (m * n)
  | "/" => compute fun m n ↦ if n = 0 then none else some (m.tdiv n)
  | "%" => compute fun m n ↦ if n = 0 then none else some (m.tmod n)
  | _ => none

/-- How tightly a sign binds. -/
def rank? : String → Option Nat
  | "|" => some 1
  | "&" => some 2
  | "=" | "==" | "!=" | "<" | "<=" | ">" | ">=" => some 3
  | "+" | "-" => some 4
  | "*" | "/" | "%" => some 5
  | _ => none

/-- The place of the first character of a text that is among others, from one on. -/
def place (text others : String) : Nat :=
  match text.toList.findIdx? (· ∈ others.toList) with
  | some i => i + 1
  | none => 0

mutual

def operand (fuel : Nat) (words : List String) : Option (String × List String) :=
  match fuel with
  | 0 => none
  | fuel + 1 =>
    match words with
    | "(" :: rest => do
      let (a, ")" :: rest) ← joined fuel 1 rest | none
      some (a, rest)
    | "length" :: s :: rest => some (toString s.length, rest)
    | "index" :: s :: others :: rest => some (toString (place s others), rest)
    | "substr" :: s :: start :: count :: rest =>
      match Test.number? start, Test.number? count with
      | some m, some n =>
        let part := if 0 < m then (s.toList.drop (m.toNat - 1)).take n.toNat else []
        some (String.ofList part, rest)
      | _, _ => some ("", rest)
    | "+" :: w :: rest => some (w, rest)
    | w :: rest => if (rank? w).isSome || w = ")" then none else some (w, rest)
    | [] => none

/-- An expression whose signs bind at least so tightly. -/
def joined (fuel rank : Nat) (words : List String) : Option (String × List String) :=
  match fuel with
  | 0 => none
  | fuel + 1 => do
    let (a, rest) ← operand fuel words
    further fuel rank a rest

/-- What an expression goes on with. -/
def further (fuel rank : Nat) (a : String) (words : List String) : Option (String × List String) :=
  match fuel with
  | 0 => none
  | fuel + 1 =>
    match words with
    | [] => some (a, [])
    | sign :: rest =>
      match rank? sign with
      | none => some (a, words)
      | some r =>
        if r < rank then some (a, words)
        else do
          let (b, rest) ← joined fuel (r + 1) rest
          further fuel rank (← join? sign a b) rest

end

/-- The value of an expression. -/
def value? (words : List String) : Option String := do
  let (a, []) ← joined (4 * words.length + 8) 1 words | none
  return a

end RemoteObjects.Rehearsal.Shell.Expression
