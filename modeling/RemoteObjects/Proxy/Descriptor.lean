import RemoteObjects.Handle

/-!
# Descriptors

All that it takes to reach an existing object: its type, its identifier and its server.
-/

namespace RemoteObjects.Proxy

structure Descriptor where
  objectType : String
  objectId : ObjectId
  addr : ServerAddr
  deriving DecidableEq

namespace Descriptor

def tree (d : Descriptor) : Json.Tree :=
  .object [("object_type", .text d.objectType), ("object_id", d.objectId.tree),
    ("addr", d.addr.tree)]

def record : Json.Record Descriptor where
  title := "struct ProxyDescriptor"
  make := Descriptor.mk
  fields := .field (.required "object_type" .text) <|
    .field (.required "object_id" ObjectId.decode) <|
    .field (.required "addr" ServerAddr.record.decode) .done

end Descriptor

end RemoteObjects.Proxy
