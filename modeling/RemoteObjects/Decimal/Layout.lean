import RemoteObjects.Decimal.Shortest

/-!
# Layout of decimal numbers

How the digits of a number are laid out as text: with a decimal point, or with one digit before
the point and a power of ten after an `e`.
-/

namespace RemoteObjects

/-- A way to write numbers. -/
structure Layout where
  /-- Positional when the point stands right of at least this many digits (negative: zeros are
  inserted after the point), if bounded. -/
  least : Option Int
  /-- Positional when the point stands right of at most this many digits, if bounded. -/
  greatest : Option Int
  /-- What follows the digits of a whole number. -/
  whole : String
  /-- The choice between equally near shortest decimals. -/
  tie : Tie

namespace Layout

/-- Numbers in JSON texts: positional from `0.00001` up to below `10 ^ 16`, with a decimal. -/
def json : Layout := ⟨some (-4), some 16, ".0", .toEven⟩

/-- Numbers in messages: always positional, whole numbers without a point. -/
def message : Layout := ⟨none, none, "", .upward⟩

/-- The digits with `point` of them, possibly a negative number, left of the decimal point. -/
def positional (whole : String) (digits : String) (point : Int) : String :=
  let count : Int := digits.length
  if point ≤ 0 then "0." ++ String.ofList (List.replicate (-point).toNat '0') ++ digits
  else if count ≤ point then
    digits ++ String.ofList (List.replicate (point - count).toNat '0') ++ whole
  else String.ofList (digits.toList.take point.toNat) ++ "." ++
    String.ofList (digits.toList.drop point.toNat)

/-- One digit, the rest after a point, and the power of ten with its sign. -/
def scientific (digits : String) (power : Int) : String :=
  let mantissa := match digits.toList with
    | first :: second :: rest => String.ofList (first :: '.' :: second :: rest)
    | short => String.ofList short
  mantissa ++ (if power < 0 then "e-" else "e+") ++ toString power.natAbs

/-- The text of a decimal without trailing zeros. -/
def decimal (layout : Layout) (d : Decimal) : String :=
  let digits := toString d.digits
  let point : Int := if d.digits = 0 then 1 else digits.length + d.power
  let inside := layout.least.all (decide <| · ≤ point) && layout.greatest.all (decide <| point ≤ ·)
  (if d.negative then "-" else "") ++
    if inside then positional layout.whole digits point else scientific digits (point - 1)

def finite (layout : Layout) (x : Binary64.Finite) : String :=
  layout.decimal (Decimal.shortest layout.tie x)

end Layout

/-- A number as messages show it. -/
def Binary64.message : Binary64 → String
  | .finite x => Layout.message.finite x
  | .infinite negative => if negative then "-inf" else "inf"
  | .nan => "NaN"

end RemoteObjects
