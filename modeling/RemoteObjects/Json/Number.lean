import RemoteObjects.Decimal.Layout

/-!
# Numbers in JSON texts

Integers from `-2 ^ 63` up to below `2 ^ 64` are kept exactly.  Every other number, and negative
zero, is kept as a binary64 number: the value of the decimal literal made of its sign, of the
leading digits that fit 64 bits, and of its power of ten.
-/

namespace RemoteObjects.Json

inductive Number where
  | natural (n : UInt64)
  /-- The integer `-(below + 1)`. -/
  | negative (below : Fin 0x8000000000000000)
  | float (x : Binary64.Finite)
  deriving DecidableEq

namespace Number

def toInt? : Number → Option Int
  | .natural n => some n.toNat
  | .negative below => some (-((below.val : Int) + 1))
  | .float _ => none

def toBinary64 : Number → Binary64
  | .natural n => .ofNat n.toNat
  | .negative below => .ofInt (-((below.val : Int) + 1))
  | .float x => .finite x

def write : Number → String
  | .natural n => toString n.toNat
  | .negative below => "-" ++ toString (below.val + 1)
  | .float x => Layout.json.finite x

def ofInt64 (n : Int64) : Number :=
  if h : 0 ≤ n.toInt then .natural n.toInt.toNat.toUInt64
  else .negative ⟨(-(n.toInt + 1)).toNat, by have := n.le_toInt; omega⟩

end Number

/-- What the text of a number has said so far. -/
structure Numeral where
  negative : Bool
  /-- The number spelled by the digits that are kept. -/
  digits : UInt64
  /-- The power of ten that the last kept digit counts. -/
  place : Int
  /-- Whether a digit was dropped since the number began, or its fraction if it has one. -/
  full : Bool
  /-- Whether neither a point nor an exponent has come. -/
  whole : Bool
  exponentNegative : Bool
  exponent : Nat

namespace Numeral

def start (negative : Bool) (digit : Nat) : Numeral :=
  ⟨negative, digit.toUInt64, 0, false, true, false, 0⟩

/-- One more digit, kept while the kept digits fit 64 bits; none is kept behind a dropped one. -/
def keep? (n : Numeral) (digit : Nat) : Option UInt64 :=
  let digits := n.digits.toNat * 10 + digit
  if n.full = false ∧ digits < UInt64.size then some digits.toUInt64 else none

/-- One more digit before the point; a dropped one still shifts the others. -/
def pushWhole (n : Numeral) (digit : Nat) : Numeral :=
  match n.keep? digit with
  | some digits => { n with digits }
  | none => { n with place := n.place + 1, full := true }

/-- The point; digits are kept anew behind it. -/
def pushPoint (n : Numeral) : Numeral := { n with whole := false, full := false }

/-- One more digit behind the point; a dropped one leaves no trace. -/
def pushFraction (n : Numeral) (digit : Nat) : Numeral :=
  match n.keep? digit with
  | some digits => { n with digits, place := n.place - 1 }
  | none => { n with full := true }

def pushExponent (n : Numeral) (digit : Nat) : Numeral :=
  { n with exponent := n.exponent * 10 + digit }

def decimal (n : Numeral) : Decimal :=
  let exponent : Int := if n.exponentNegative then -(n.exponent : Int) else n.exponent
  ⟨n.negative, n.digits.toNat, n.place + exponent⟩

/-- The value of the numeral, unless it is beyond all finite numbers. -/
def float? (n : Numeral) : Option Number :=
  match n.decimal.toBinary64 with
  | .finite x => some (.float x)
  | _ => none

def number? (n : Numeral) : Option Number :=
  if n.whole ∧ n.place = 0 then
    if n.negative then
      if h : 0 < n.digits.toNat ∧ n.digits.toNat ≤ 0x8000000000000000 then
        some (.negative ⟨n.digits.toNat - 1, by omega⟩)
      else n.float?
    else some (.natural n.digits)
  else n.float?

end Numeral

end RemoteObjects.Json
