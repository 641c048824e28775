import RemoteObjects.Effects
import RemoteObjects.Handle

/-!
# Random words

A generator of 64-bit words: a counter that advances by a fixed odd step, and a mixing of its bits.
What is drawn from it serves as jitter factors and as identifiers.
-/

namespace RemoteObjects

structure Entropy where
  counter : UInt64

namespace Entropy

def start : Entropy := ⟨0⟩

def next (e : Entropy) : UInt64 × Entropy :=
  let counter := e.counter + 0x9e3779b97f4a7c15
  let mixed := (counter ^^^ (counter >>> 30)) * 0xbf58476d1ce4e5b9
  let mixed := (mixed ^^^ (mixed >>> 27)) * 0x94d049bb133111eb
  (mixed ^^^ (mixed >>> 31), ⟨counter⟩)

def jitter (e : Entropy) : Binary64 × Entropy :=
  let (word, e) := e.next
  (jitterOfRandom word, e)

def objectId (e : Entropy) : ObjectId × Entropy :=
  let (high, e) := e.next
  let (low, e) := e.next
  (.ofRandom high low, e)

/-- So many draws, in order. -/
def draw {α : Type} (pick : Entropy → α × Entropy) : Nat → Entropy → List α
  | 0, _ => []
  | n + 1, e =>
    let (a, e) := pick e
    a :: draw pick n e

end Entropy

/-- Whether an identifier looks random: 32 small hexadecimal digits with the marks of version 4. -/
def ObjectId.looksRandom (id : ObjectId) : Bool :=
  let digits := id.text.toList
  let hex (c : Char) : Bool := c.isDigit || ('a' ≤ c && c ≤ 'f')
  digits.length = 32 && digits.all hex && digits[12]? = some '4' &&
    (digits[16]?.any fun c ↦ c ∈ ['8', '9', 'a', 'b'])

end RemoteObjects
