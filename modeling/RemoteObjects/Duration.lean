import RemoteObjects.Binary64

/-!
# Durations

A duration is a whole number of nanoseconds, less than `2 ^ 64` seconds.  Floating numbers of
seconds are rounded to the nearest nanosecond, a half to the even one.
-/

namespace RemoteObjects

structure Duration where
  nanos : Nat
  fits : nanos < UInt64.size * 1_000_000_000
  deriving DecidableEq

namespace Duration

/-- Why a number of seconds is no duration. -/
inductive Failure where
  | negative
  /-- At least `2 ^ 64` seconds, or not a number at all. -/
  | unbounded
  deriving DecidableEq

def Failure.message : Failure → String
  | .negative => "cannot convert float seconds to Duration: value is negative"
  | .unbounded => "cannot convert float seconds to Duration: value is either too big or NaN"

def zero : Duration := ⟨0, by decide⟩

instance : Inhabited Duration := ⟨zero⟩

/-- The longest duration. -/
def max : Duration := ⟨UInt64.size * 1_000_000_000 - 1, by decide⟩

def ofMillis (ms : UInt64) : Duration :=
  ⟨ms.toNat * 1_000_000, by have := ms.toNat_lt; simp only [UInt64.size]; omega⟩

/-- Whole seconds and nanoseconds below a second. -/
def ofParts? (seconds nanos : Nat) : Option Duration :=
  if h : seconds * 1_000_000_000 + nanos < UInt64.size * 1_000_000_000 then
    some ⟨seconds * 1_000_000_000 + nanos, h⟩
  else none

def seconds (d : Duration) : Nat := d.nanos / 1_000_000_000

/-- The nanoseconds below a second. -/
def subsecond (d : Duration) : Nat := d.nanos % 1_000_000_000

def millis (d : Duration) : Nat := d.nanos / 1_000_000

def min (d e : Duration) : Duration := if e.nanos < d.nanos then e else d

/-- Twice the duration, or the longest one. -/
def double (d : Duration) : Duration :=
  if h : 2 * d.nanos < UInt64.size * 1_000_000_000 then ⟨2 * d.nanos, h⟩ else max

/-- The nearest nanosecond to a magnitude, a half to the even one. -/
def nanosOf (x : Binary64.Finite) : Nat := roundEven (x.units * 1_000_000_000) (1 <<< 1074)

/-- A number of seconds.  Anything below zero is refused, however close; the negative zero is not
below zero. -/
def ofSeconds : Binary64 → Except Failure Duration
  | .finite x =>
    if x.negative ∧ x.units ≠ 0 then .error .negative
    else if h : nanosOf x < UInt64.size * 1_000_000_000 then .ok ⟨nanosOf x, h⟩
    else .error .unbounded
  | .infinite true => .error .negative
  | .infinite false | .nan => .error .unbounded

/-- The seconds as a floating number: the whole seconds and the nanoseconds are rounded apart and
then added. -/
def toSeconds (d : Duration) : Binary64 :=
  match Binary64.ofNat d.seconds, Binary64.ofRatio false d.subsecond 1_000_000_000 with
  | .finite x, .finite y => x.add y
  | x, _ => x

/-- The duration times a factor. -/
def scale (d : Duration) (factor : Binary64) : Except Failure Duration :=
  ofSeconds (factor.mul d.toSeconds)

end Duration

end RemoteObjects
