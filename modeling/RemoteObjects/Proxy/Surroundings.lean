import RemoteObjects.Client
import RemoteObjects.Launch.Config
import RemoteObjects.Launch.Error

/-!
# What proxies live among

Proxies reach servers over links, have objects created in the background, and may own a launcher.
Links and launchers are known by names of the types `κ` and `ℓ`; what stands behind the names is
known to the surroundings alone.
-/

namespace RemoteObjects.Proxy

/-- The creation of an object, asked of the server behind a link. -/
structure Creation (κ : Type) where
  link : κ
  objectType : String
  args : ByteArray
  objectId : ObjectId

/-- What became of a creation. -/
inductive Settled where
  | finished (result : Except Client.Error Unit)
  | crashed (reason : String)

structure Surroundings (m : Type → Type) (κ ℓ : Type) where
  connect : ServerAddr → m κ
  client : κ → Client m
  /-- An identifier that no other object has. -/
  freshId : m ObjectId
  /-- Starts a creation in the background and numbers it. -/
  start : Creation κ → m Nat
  /-- What became of a creation, if it is over. -/
  poll : Nat → m (Option Settled)
  /-- Waits until a creation is over. -/
  join : Nat → m Settled
  /-- Whether nobody has looked at the end of this creation before. -/
  firstLook : Nat → m Bool
  /-- A running server to try, if there is one. -/
  discover : m (Option ServerAddr)
  launch : ℓ → LaunchConfig → m (Except Launch.Error UInt16)
  /-- Takes a launcher out of the hands of its proxy, once; whether it was still there. -/
  release : ℓ → m Bool
  /-- Whether a launcher is still in the hands of its proxy. -/
  held : ℓ → m Bool
  shutdown : ℓ → m (Except Launch.Error Unit)

end RemoteObjects.Proxy
