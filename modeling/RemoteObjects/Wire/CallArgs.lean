import RemoteObjects.Json.Record
import RemoteObjects.Json.Write

/-!
# Arguments of a call

Positional arguments in order, and keyword arguments by name.  Both sections may be left out of a
text.
-/

namespace RemoteObjects

structure CallArgs where
  positional : List Json.Value
  keyword : Keyed Json.Value
  deriving Inhabited

namespace CallArgs

def empty : CallArgs := ⟨[], .empty⟩

def push (args : CallArgs) (v : Json.Value) : CallArgs :=
  { args with positional := args.positional ++ [v] }

/-- Sets a keyword argument, instead of an earlier one of the same name. -/
def set (args : CallArgs) (name : String) (v : Json.Value) : CallArgs :=
  { args with keyword := args.keyword.insert name v }

def isEmpty (args : CallArgs) : Bool := args.positional.isEmpty && args.keyword.isEmpty

def tree (args : CallArgs) : Json.Tree :=
  .object [("args", (Json.Value.array args.positional).tree),
    ("kwargs", (Json.Value.object args.keyword).tree)]

def record : Json.Record CallArgs where
  title := "struct CallArgs"
  make := CallArgs.mk
  fields := .field (.optional "args" (.list .value) []) <|
    .field (.optional "kwargs" (.keyed .value) .empty) .done

end CallArgs

end RemoteObjects
