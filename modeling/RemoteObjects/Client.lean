import RemoteObjects.Client.Error
import RemoteObjects.Handle

/-!
# Clients

A client is what a proxy needs of one server: to create an object, to call a method with bytes that
are not looked into, and to find out whether the server is alive.
-/

namespace RemoteObjects

structure Client (m : Type → Type) where
  create : (objectType : String) → (args : ByteArray) → ObjectId → m (Except Client.Error Unit)
  /-- Calls a method and answers with the encoded outcome. -/
  call : ObjectId → (method : String) → (payload : ByteArray) → m (Except Client.Error ByteArray)
  reachable : m Bool

end RemoteObjects
