import RemoteObjects.MethodTable
import RemoteObjects.Wire.Codec

/-!
# Types and codecs for rehearsals
-/

namespace RemoteObjects.Rehearsal

/-- The type of a name; names without a type of their own are counters. -/
def typeOf : String → ObjectType
  | "Room" => ⟨"Room", "chat.Room", ["join", "speak", "get", "join"]⟩
  | "Shadow" => ⟨"Shadow", "Counter", ["observe", "get"]⟩
  | "Ghost" => ⟨"Ghost", "Ghost", ["get"]⟩
  | "Bare" => ⟨"Bare", "Bare", []⟩
  | "Secret" => ⟨"Secret", "", ["_a", "__b", "c"]⟩
  | _ => ⟨"Counter", "Counter", ["increment", "get", "fail", "refuse", "echo", "first", "garbage",
      "confused", "mystery", "_reset"]⟩

/-- A codec that refuses one word as an argument. -/
def pickyCodec : Codec :=
  { Codec.json with
    encodeArgs args :=
      let refused (v : Json.Value) : Bool := v.text? = some "unencodable"
      if args.positional.any refused || args.keyword.values.any refused then
        .error (.encode "unencodable argument")
      else Codec.json.encodeArgs args }

/-- The tables of types that are asked for in turn, each with its place among the tables made. -/
def tablesOf (names : List String) : List (Nat × MethodTable) :=
  let step (state : MethodRegistry × List Nat) (name : String) : MethodRegistry × List Nat :=
    let (position, registry) := state.1.tableOf (typeOf name)
    (registry, state.2 ++ [position])
  let (registry, positions) := names.foldl step (.empty, [])
  positions.filterMap fun p ↦ (registry.get? p).map (p, ·)

end RemoteObjects.Rehearsal
