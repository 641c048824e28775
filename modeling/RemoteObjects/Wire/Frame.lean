import RemoteObjects.Handle
import RemoteObjects.Json.Tagged
import RemoteObjects.Wire.Codec

/-!
# Requests and responses

The messages that a client and a server exchange.  What they carry for the object is bytes here; in
a written message it is an array of numbers.
-/

namespace RemoteObjects

inductive Request where
  /-- Asks for an object of a type under an identifier that the client has chosen. -/
  | create (objectType : String) (objectId : ObjectId) (args : ByteArray)
  | call (objectId : ObjectId) (method : String) (payload : ByteArray)
  /-- Asks whether the server is alive. -/
  | ping

inductive Response where
  | created
  /-- Carries the encoded outcome of a call. -/
  | returned (payload : ByteArray)
  /-- The server could not carry out the request at all. -/
  | fault (f : RemoteFault)
  | pong

def bytesTree (bytes : ByteArray) : Json.Tree :=
  .array (bytes.data.toList.map fun b ↦ .number (.natural b.toUInt64))

namespace Request

def tree : Request → Json.Tree
  | .create objectType objectId args =>
    .object [("op", .text "create"), ("object_type", .text objectType),
      ("object_id", objectId.tree), ("args", bytesTree args)]
  | .call objectId method payload =>
    .object [("op", .text "call"), ("object_id", objectId.tree), ("method", .text method),
      ("payload", bytesTree payload)]
  | .ping => .object [("op", .text "ping")]

def tagged : Json.Tagged Request where
  title := "internally tagged enum Request"
  tag := "op"
  variants := [
    .record "create"
      { title := "struct variant Request::Create"
        make := Request.create
        fields := .field (.required "object_type" .text) <|
          .field (.required "object_id" ObjectId.decode) <|
          .field (.required "args" .bytes) .done : Json.Record Request } id,
    .record "call"
      { title := "struct variant Request::Call"
        make := Request.call
        fields := .field (.required "object_id" ObjectId.decode) <|
          .field (.required "method" .text) <|
          .field (.required "payload" .bytes) .done : Json.Record Request } id,
    .plain "ping" .ping]

def encode (r : Request) : ByteArray := Wire.encodeTree r.tree

def decode (bytes : ByteArray) : Except Wire.Error Request := Wire.decodeBytes tagged.decode bytes

end Request

namespace Response

/-- The name of the response in written messages. -/
def kind : Response → String
  | .created => "created"
  | .returned _ => "returned"
  | .fault _ => "fault"
  | .pong => "pong"

def tree (r : Response) : Json.Tree :=
  .object (("op", .text r.kind) ::
    match r with
    | .returned payload => [("payload", bytesTree payload)]
    | .fault f => f.members
    | .created | .pong => [])

def tagged : Json.Tagged Response where
  title := "internally tagged enum Response"
  tag := "op"
  variants := [
    .plain "created" .created,
    .record "returned"
      { title := "struct variant Response::Returned"
        make := Response.returned
        fields := .field (.required "payload" .bytes) .done : Json.Record Response } id,
    .record "fault" RemoteFault.record .fault,
    .plain "pong" .pong]

def encode (r : Response) : ByteArray := Wire.encodeTree r.tree

def decode (bytes : ByteArray) : Except Wire.Error Response := Wire.decodeBytes tagged.decode bytes

end Response

end RemoteObjects
