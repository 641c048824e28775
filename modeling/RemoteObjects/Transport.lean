import RemoteObjects.Duration
import RemoteObjects.Transport.Error

/-!
# Transports

A transport takes bytes to a server and brings the reply; what the bytes mean is not its business.
-/

namespace RemoteObjects

structure Transport (m : Type → Type) where
  call : ByteArray → m (Except Transport.Error ByteArray)
  /-- Like `call`, but gives up and answers nothing when the exchange takes longer. -/
  callWithin : Duration → ByteArray → m (Option (Except Transport.Error ByteArray))

end RemoteObjects
