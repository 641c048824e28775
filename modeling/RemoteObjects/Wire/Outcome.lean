import RemoteObjects.Json.Record
import RemoteObjects.Json.Write

/-!
# Outcomes of a call

A call ends with a value or with a fault that the remote object reports.  An outcome is written as
an object whose one member, `ok` or `err`, says which of the two it is.
-/

namespace RemoteObjects

structure RemoteFault where
  kind : String
  message : String
  deriving DecidableEq

namespace RemoteFault

def display (f : RemoteFault) : String := f.kind ++ ": " ++ f.message

/-- The members of a written fault. -/
def members (f : RemoteFault) : List (String × Json.Tree) :=
  [("kind", .text f.kind), ("message", .text f.message)]

def record : Json.Record RemoteFault where
  title := "struct RemoteFault"
  make := RemoteFault.mk
  fields := .field (.required "kind" .text) <| .field (.required "message" .text) .done

end RemoteFault

abbrev Outcome : Type := Except RemoteFault Json.Value

namespace Outcome

def tree : Outcome → Json.Tree
  | .ok v => .object [("ok", v.tree)]
  | .error f => .object [("err", .object f.members)]

/-- The names under which an outcome is written. -/
def names : List String := ["ok", "err"]

def decode : Json.Decoder Outcome
  | place, .object ((some name, d) :: rest) => do
    let inner ← place.enter
    let outcome : Outcome ←
      if name = "ok" then (Json.Decoder.value inner d).map .ok
      else if name = "err" then (RemoteFault.record.decode inner d).map .error
      else .error (.unknownVariant name names)
    if rest.isEmpty then return outcome else throw .malformed
  | _, .text (some name) =>
    if name ∈ names then .error (.invalidType .unitVariant "newtype variant")
    else .error (.unknownVariant name names)
  | place, .object _ => do
    let _ ← place.enter
    throw .malformed
  | _, _ => .error .malformed

end Outcome

end RemoteObjects
