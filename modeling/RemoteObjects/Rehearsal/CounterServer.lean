import RemoteObjects.Wire.Frame

/-!
# A server of counters

Objects live at an address under an identifier and hold a 64-bit number.  Some methods misbehave on
purpose.
-/

namespace RemoteObjects.Rehearsal

/-- The number a counter starts with. -/
def startOf (args : CallArgs) : Int64 := ((args.keyword.get? "start").bind (·.int64?)).getD 0

/-- The amount by which a counter is to be increased. -/
def amountOf (args : CallArgs) : Int64 := (args.positional.head?.bind (·.int64?)).getD 1

/-- A sum, unless it has no 64 bits. -/
def addChecked (a b : Int64) : Option Int64 :=
  if (a + b).toInt = a.toInt + b.toInt then some (a + b) else none

/-- What a method of a counter answers, and the number afterwards. -/
def callCounter (n : Int64) (method : String) (args : CallArgs) : Response × Int64 :=
  let answer (outcome : Outcome) : Response := .returned (Wire.encodeTree outcome.tree)
  match method with
  | "increment" =>
    match addChecked n (amountOf args) with
    | some next => (answer (.ok (.ofInt64 next)), next)
    | none => (answer (.error ⟨"Overflow", "counter"⟩), n)
  | "get" => (answer (.ok (.ofInt64 n)), n)
  | "fail" => (answer (.error ⟨"ValueError", "asked to fail"⟩), n)
  | "refuse" => (.fault ⟨"Refused", "call refused"⟩, n)
  | "echo" => (answer (.ok (.ofTree args.tree)), n)
  | "first" => (answer (.ok (args.positional.headD .null)), n)
  | "garbage" => (.returned "not an outcome".toUTF8, n)
  | "confused" => (.pong, n)
  | _ => (answer (.error ⟨"AttributeError", method⟩), n)

abbrev Counters : Type := List ((ServerAddr × ObjectId) × Int64)

namespace Counters

def set (counters : Counters) (key : ServerAddr × ObjectId) (n : Int64) : Counters :=
  (key, n) :: counters.filter (·.1 ≠ key)

/-- What the server at an address answers to a request. -/
def respond (counters : Counters) (addr : ServerAddr) : Request → Response × Counters
  | .ping => (.pong, counters)
  | .create objectType objectId args =>
    if objectType ≠ "Counter" ∧ objectType ≠ "chat.Room" then
      (.fault ⟨"UnknownType", objectType⟩, counters)
    else if (counters.lookup (addr, objectId)).isSome then
      (.fault ⟨"AlreadyExists", objectId.text⟩, counters)
    else match Codec.json.decodeArgs args with
      | .error _ => (.fault ⟨"BadArgs", "constructor"⟩, counters)
      | .ok args => (.created, counters.set (addr, objectId) (startOf args))
  | .call objectId method payload =>
    match counters.lookup (addr, objectId) with
    | none => (.fault ⟨"NotFound", objectId.text⟩, counters)
    | some n =>
      match Codec.json.decodeArgs payload with
      | .error _ => (.fault ⟨"BadArgs", method⟩, counters)
      | .ok args =>
        let (response, n) := callCounter n method args
        (response, counters.set (addr, objectId) n)

/-- What the server answers to a frame. -/
def reply (counters : Counters) (addr : ServerAddr) (frame : ByteArray) : ByteArray × Counters :=
  match Request.decode frame with
  | .error e => ((Response.fault ⟨"BadRequest", e.message⟩).encode, counters)
  | .ok request =>
    let (response, counters) := counters.respond addr request
    (response.encode, counters)

end Counters

end RemoteObjects.Rehearsal
