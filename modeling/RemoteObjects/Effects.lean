import RemoteObjects.Duration

/-!
# What running code may do

Besides computing, code may wait, draw a jitter factor, report an event, and crash.
-/

namespace RemoteObjects

inductive Level where
  | debug
  | info
  | warn
  deriving DecidableEq

/-- Something worth a line in a log, with named details as texts. -/
structure Event where
  level : Level
  message : String
  fields : List (String × String)
  deriving DecidableEq

class Effects (m : Type → Type) where
  sleep : Duration → m Unit
  /-- A factor of at least a half and below one and a half. -/
  jitter : m Binary64
  log : Event → m Unit
  crash {α : Type} (reason : String) : m α

/-- The jitter factor of a random word: one half plus a fraction of 52 random bits. -/
def jitterOfRandom (word : UInt64) : Binary64 :=
  .ofRatio false (1 <<< 51 + word.toNat >>> 12) (1 <<< 52)

/-- The bounds of jitter factors, the lower one included. -/
def isJitter (x : Binary64) : Bool :=
  !x.lt (.ofRatio false 1 2) && x.lt (.ofRatio false 3 2)

end RemoteObjects
