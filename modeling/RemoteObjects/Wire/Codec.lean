import RemoteObjects.Wire.CallArgs
import RemoteObjects.Wire.Error
import RemoteObjects.Wire.Outcome

/-!
# Codecs

Clients and servers move arguments and outcomes as bytes, and only a codec knows their format.  The
client encodes arguments and decodes outcomes; the server does the opposite.
-/

namespace RemoteObjects

structure Codec where
  encodeArgs : CallArgs → Except Wire.Error ByteArray
  decodeArgs : ByteArray → Except Wire.Error CallArgs
  encodeOutcome : Outcome → Except Wire.Error ByteArray
  decodeOutcome : ByteArray → Except Wire.Error Outcome

namespace Wire

variable {α : Type}

/-- Reads bytes as a JSON text. -/
def decodeBytes (decode : Json.Decoder α) (bytes : ByteArray) : Except Error α :=
  (Json.readBytes decode bytes).mapError fun cause ↦ .decode cause.message

def encodeTree (t : Json.Tree) : ByteArray := t.write.toUTF8

end Wire

/-- Arguments and outcomes as JSON texts. -/
def Codec.json : Codec where
  encodeArgs args := .ok (Wire.encodeTree args.tree)
  decodeArgs := Wire.decodeBytes CallArgs.record.decode
  encodeOutcome outcome := .ok (Wire.encodeTree outcome.tree)
  decodeOutcome := Wire.decodeBytes Outcome.decode

end RemoteObjects
