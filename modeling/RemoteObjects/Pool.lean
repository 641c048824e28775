import RemoteObjects.Handle

/-!
# A pool of servers

Servers are handed out in turn.  The turn is counted in 64 bits.
-/

namespace RemoteObjects

structure ServerPool where
  addrs : List ServerAddr
  turn : UInt64

namespace ServerPool

def ofList (addrs : List ServerAddr) : ServerPool := ⟨addrs, 0⟩

def size (p : ServerPool) : Nat := p.addrs.length

def isEmpty (p : ServerPool) : Bool := p.addrs.isEmpty

/-- The server whose turn it is, if there is any, and the pool with the turn passed on. -/
def allocate (p : ServerPool) : Option ServerAddr × ServerPool :=
  match p.addrs with
  | [] => (none, p)
  | addrs => (addrs[p.turn.toNat % addrs.length]?, { p with turn := p.turn + 1 })

end ServerPool

end RemoteObjects
