import RemoteObjects.Binary64

/-!
# Decimal literals

A literal is a sign, the number its digits spell, and a power of ten.  It is valued in three
steps, each of which rounds to the nearest binary64 number: the digits, the power of ten, and
their product or quotient.  The value may therefore miss the number nearest to the literal by a
few codes; it is that number whenever digits and power of ten are themselves binary64 numbers.
-/

namespace RemoteObjects

structure Decimal where
  negative : Bool
  digits : Nat
  power : Int
  deriving DecidableEq

namespace Decimal

/-- How many decimal digits a number has; zero has none. -/
def digitCount (n : Nat) : Nat := if n = 0 then 0 else (Nat.toDigits 10 n).length

/-- The greatest power of ten that is below some finite binary64 number. -/
def greatestPower : Nat := 308

/-- `10 ^ power`, rounded. -/
def tenTo (power : Nat) : Binary64 := .ofNat (Nat.pow 10 power)

/-- `x / 10 ^ power`; a power of ten beyond all finite numbers is divided out piece by piece, until
nothing is left of `x`. -/
def lower (x : Binary64) (power : Nat) : Binary64 :=
  if power ≤ greatestPower then x.div (tenTo power)
  else if x.isZero then x
  else lower (x.div (tenTo greatestPower)) (power - greatestPower)
termination_by power
decreasing_by simp only [greatestPower] at *; omega

/-- `x * 10 ^ power`; a power of ten beyond all finite numbers leaves only zero finite. -/
def raise (x : Binary64) (power : Nat) : Binary64 :=
  if power ≤ greatestPower then x.mul (tenTo power)
  else if x.isZero then x
  else .infinite x.isNegative

def toBinary64 (d : Decimal) : Binary64 :=
  let x := .ofRatio d.negative d.digits 1
  if 0 ≤ d.power then raise x d.power.toNat else lower x (-d.power).toNat

end Decimal

end RemoteObjects
