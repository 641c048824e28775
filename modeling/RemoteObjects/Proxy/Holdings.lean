import RemoteObjects.Proxy

/-!
# Who holds a proxy

A proxy, and each method taken from it, keeps alive the server that was launched for it.  The
server is stopped when the last of them is dropped, unless it was stopped before.
-/

namespace RemoteObjects.Proxy

inductive Holder (κ ℓ : Type) where
  | proxy (p : Proxy κ ℓ)
  | method (f : Method κ ℓ)

/-- The proxy that is held, be it by one of its methods. -/
def Holder.held {κ ℓ : Type} : Holder κ ℓ → Proxy κ ℓ
  | .proxy p => p
  | .method f => f.proxy

/-- A copy: of a proxy one that does not own the server, of a method the same again. -/
def Holder.copy {κ ℓ : Type} : Holder κ ℓ → Holder κ ℓ
  | .proxy p => .proxy p.clone
  | .method f => .method f

/-- What is held under which name. -/
abbrev Holdings (κ ℓ : Type) : Type := Keyed (Holder κ ℓ)

namespace Holdings

variable {m : Type → Type} [Monad m] [Effects m] {κ ℓ : Type} [DecidableEq ℓ]

/-- Whether a launcher is kept by something held. -/
def keeps (h : Holdings κ ℓ) (launcher : ℓ) : Bool :=
  h.values.any fun holder ↦ holder.held.launcher = some launcher

/-- Lets go of what is held no longer. -/
def letGo (s : Surroundings m κ ℓ) (rest : Holdings κ ℓ) (gone : Holder κ ℓ) : m Unit :=
  match gone.held.launcher with
  | none => return ()
  | some launcher => if rest.keeps launcher then return () else gone.held.stop s

/-- Holds something under a name, and lets go of what was held there before. -/
def put (s : Surroundings m κ ℓ) (h : Holdings κ ℓ) (name : String) (holder : Holder κ ℓ) :
    m (Holdings κ ℓ) := do
  let rest := h.insert name holder
  if let some gone := h.get? name then letGo s rest gone
  return rest

/-- Lets go of what is held under a name. -/
def drop (s : Surroundings m κ ℓ) (h : Holdings κ ℓ) (name : String) : m (Holdings κ ℓ) := do
  let rest := h.erase name
  if let some gone := h.get? name then letGo s rest gone
  return rest

/-- Lets go of everything, in the order of the names. -/
def dropAll (s : Surroundings m κ ℓ) (h : Holdings κ ℓ) : m (Holdings κ ℓ) :=
  h.keys.foldlM (fun h name ↦ h.drop s name) h

end Holdings

end RemoteObjects.Proxy
