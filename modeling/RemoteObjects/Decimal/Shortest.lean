import RemoteObjects.Decimal.Literal

/-!
# Shortest decimal digits

The decimal with the fewest digits that rounds to a given finite number, and of those the one
nearest to it.  A decimal rounds to the number exactly when it lies between the midpoints to the
two neighbouring magnitudes, the midpoints themselves included iff the code is even.  On the grid of
multiples of a power of ten, if any point lies in that interval then so does one of the two grid
points around the number, so only these are tried, on ever finer grids.
-/

namespace RemoteObjects

/-- Which of two equally near decimals is taken. -/
inductive Tie where
  | toEven
  | upward
  deriving DecidableEq

namespace Decimal

/-- `digits * 10 ^ power` in units of `2 ^ (-1074)`, as a ratio. -/
def unitRatio (digits : Nat) (power : Int) : Nat × Nat :=
  (digits * Nat.pow 10 power.toNat <<< 1074, Nat.pow 10 (-power).toNat)

/-- Whether `digits * 10 ^ power` rounds to the magnitude with this code. -/
def roundsTo (code digits : Nat) (power : Int) : Bool :=
  let (num, den) := unitRatio digits power
  let here := Binary64.unitsOfCode code
  let low := (Binary64.unitsOfCode (code - 1) + here) * den
  let high := (here + Binary64.unitsOfCode (code + 1)) * den
  if code % 2 = 0 then decide (low ≤ 2 * num ∧ 2 * num ≤ high)
  else decide (low < 2 * num ∧ 2 * num < high)

/-- The point of the grid `10 ^ power` nearest to the magnitude among those that round to it. -/
def onGrid? (tie : Tie) (code : Nat) (power : Int) : Option Nat :=
  let num := Binary64.unitsOfCode code * Nat.pow 10 (-power).toNat
  let den := Nat.pow 10 power.toNat <<< 1074
  let below := num / den
  let rest := num % den
  match roundsTo code below power, roundsTo code (below + 1) power with
  | true, true =>
    let up := den < 2 * rest ∨ (2 * rest = den ∧ (tie = .upward ∨ below % 2 = 1))
    some (if up then below + 1 else below)
  | true, false => some below
  | false, true => some (below + 1)
  | false, false => none

/-- The power of ten of the leading digit of the magnitude. -/
def leadingPower (code : Nat) : Int :=
  let num := Binary64.unitsOfCode code
  let den := 1 <<< 1074
  if den ≤ num then digitCount (num / den) - 1 else -digitCount ((den - 1) / num)

/-- Moves trailing zeros of the digits into the power of ten. -/
def dropZeros : Nat → Nat → Int → Nat × Int
  | 0, digits, power => (digits, power)
  | fuel + 1, digits, power =>
    if digits ≠ 0 ∧ digits % 10 = 0 then dropZeros fuel (digits / 10) (power + 1)
    else (digits, power)

/-- The fewest digits that round to `x`, without trailing zeros.  Seventeen always do. -/
def shortest (tie : Tie) (x : Binary64.Finite) : Decimal :=
  if x.units = 0 then ⟨x.negative, 0, 0⟩
  else
    let lead := leadingPower x.code
    let grids := (List.range 17).map fun (n : Nat) ↦ lead - (n : Int)
    match grids.findSome? fun p ↦ (onGrid? tie x.code p).map (·, p) with
    | some (digits, power) =>
      let (digits, power) := dropZeros 18 digits power
      ⟨x.negative, digits, power⟩
    | none => ⟨x.negative, 0, 0⟩

end Decimal

end RemoteObjects
