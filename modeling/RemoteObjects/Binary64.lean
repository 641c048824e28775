/-!
# Binary64 numbers

A finite number is a sign and the code of its magnitude: the codes run through the magnitudes in
increasing order, `2 ^ 52` of them per binade.  Every finite magnitude is a whole number of
`2 ^ (-1074)`, so all arithmetic below is exact `Nat` arithmetic followed by one rounding to the
nearest code, a half going to the even one.
-/

namespace RemoteObjects

/-- `num / den` to the nearest natural number, a half to the even neighbour. -/
def roundEven (num den : Nat) : Nat :=
  let quotient := num / den
  let rest := num % den
  if 2 * rest < den ∨ (2 * rest = den ∧ quotient % 2 = 0) then quotient else quotient + 1

namespace Binary64

/-- The number of codes of finite magnitudes. -/
def codes : Nat := 2047 <<< 52

/-- The magnitude with the given code, in units of `2 ^ (-1074)`.  Below `2 ^ 52` (the subnormal
magnitudes) a code is its own magnitude. -/
def unitsOfCode (code : Nat) : Nat :=
  if code < 1 <<< 52 then code
  else (1 <<< 52 + code % 1 <<< 52) <<< (code >>> 52 - 1)

/-- The code nearest to the magnitude `num / den`, given in units.  The significand is rounded in
the binade of `num / den`; one that rounds up to `2 ^ 53` carries into the next binade by itself. -/
def nearestCode (num den : Nat) : Nat :=
  let binade := Nat.log2 (num / den) - 52
  binade <<< 52 + roundEven num (den <<< binade)

structure Finite where
  negative : Bool
  code : Fin codes
  deriving DecidableEq

namespace Finite

/-- The magnitude in units of `2 ^ (-1074)`. -/
def units (x : Finite) : Nat := unitsOfCode x.code

/-- The number itself in units of `2 ^ (-1074)`; both zeros have none. -/
def signedUnits (x : Finite) : Int := if x.negative then -(x.units : Int) else x.units

def zero (negative : Bool) : Finite := ⟨negative, ⟨0, by decide⟩⟩

/-- The largest finite number. -/
def max : Finite := ⟨false, ⟨codes - 1, by decide⟩⟩

end Finite

end Binary64

inductive Binary64 where
  | finite (x : Binary64.Finite)
  | infinite (negative : Bool)
  | nan
  deriving DecidableEq

namespace Binary64

/-- The number nearest to `num / den` units, with the given sign. -/
def ofUnits (negative : Bool) (num den : Nat) : Binary64 :=
  if h : nearestCode num den < codes then
    .finite ⟨negative, ⟨nearestCode num den, h⟩⟩
  else .infinite negative

/-- The number nearest to `num / den`, with the given sign. -/
def ofRatio (negative : Bool) (num den : Nat) : Binary64 :=
  ofUnits negative (num <<< 1074) den

def ofNat (n : Nat) : Binary64 := ofRatio false n 1

/-- The number nearest to an integer; zero is the positive one. -/
def ofInt (n : Int) : Binary64 := ofRatio (decide (n < 0)) n.natAbs 1

/-- The sum of two finite numbers; an exact zero is positive unless both summands are negative. -/
def Finite.add (x y : Finite) : Binary64 :=
  let sum := x.signedUnits + y.signedUnits
  ofUnits (if sum = 0 then x.negative && y.negative else decide (sum < 0)) sum.natAbs 1

def mul : Binary64 → Binary64 → Binary64
  | .finite x, .finite y => ofUnits (x.negative ^^ y.negative) (x.units * y.units) (1 <<< 1074)
  | .finite x, .infinite n | .infinite n, .finite x =>
    if x.units = 0 then .nan else .infinite (x.negative ^^ n)
  | .infinite m, .infinite n => .infinite (m ^^ n)
  | .nan, _ | _, .nan => .nan

def div : Binary64 → Binary64 → Binary64
  | .finite x, .finite y =>
    if y.units ≠ 0 then ofUnits (x.negative ^^ y.negative) (x.units <<< 1074) y.units
    else if x.units ≠ 0 then .infinite (x.negative ^^ y.negative)
    else .nan
  | .finite x, .infinite n => .finite (.zero (x.negative ^^ n))
  | .infinite n, .finite x => .infinite (x.negative ^^ n)
  | .infinite _, .infinite _ => .nan
  | .nan, _ | _, .nan => .nan

def isZero : Binary64 → Bool
  | .finite x => x.units == 0
  | .infinite _ | .nan => false

def isNegative : Binary64 → Bool
  | .finite x => x.negative
  | .infinite n => n
  | .nan => false

/-- Strictly below, as numbers: the zeros are equal and NaN is below nothing and above nothing. -/
def lt : Binary64 → Binary64 → Bool
  | .finite x, .finite y => decide (x.signedUnits < y.signedUnits)
  | .finite _, .infinite n => !n
  | .infinite n, .finite _ => n
  | .infinite m, .infinite n => m && !n
  | .nan, _ | _, .nan => false

end Binary64

end RemoteObjects
