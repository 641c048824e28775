import RemoteObjects.Json.Record

/-!
# Objects and servers

An object is known by an identifier that its client chooses before the object exists; a server is
known by a host and a port.
-/

namespace RemoteObjects

structure ObjectId where
  text : String
  deriving DecidableEq, Inhabited

namespace ObjectId

/-- Sixteen random bytes as hexadecimal digits, with the marks of a random identifier: version 4 in
the thirteenth digit and variant `10` in the top bits of the seventeenth. -/
def ofRandom (high low : UInt64) : ObjectId :=
  let high := (high.toNat / 0x10000) * 0x10000 + 0x4000 + high.toNat % 0x1000
  let low := 1 <<< 63 + low.toNat % 1 <<< 62
  let digits := Nat.toDigits 16 (high <<< 64 + low)
  ⟨String.ofList (List.replicate (32 - digits.length) '0' ++ digits)⟩

def tree (id : ObjectId) : Json.Tree := .text id.text

def decode : Json.Decoder ObjectId := Json.Decoder.text.map .mk

end ObjectId

structure ServerAddr where
  host : String
  port : UInt16
  deriving DecidableEq, Inhabited

namespace ServerAddr

def display (addr : ServerAddr) : String := addr.host ++ ":" ++ toString addr.port.toNat

def tree (addr : ServerAddr) : Json.Tree :=
  .object [("host", .text addr.host), ("port", .number (.natural addr.port.toUInt64))]

def record : Json.Record ServerAddr where
  title := "struct ServerAddr"
  make := ServerAddr.mk
  fields := .field (.required "host" .text) <| .field (.required "port" .uint16) .done

end ServerAddr

end RemoteObjects
