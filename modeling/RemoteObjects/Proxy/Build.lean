import RemoteObjects.Proxy

/-!
# How proxies come about

A new proxy needs a server.  It takes the address it is given, or else a discovered server that is
alive, or else one that it launches and then owns.  The constructor arguments are encoded before
any server is sought, so arguments that cannot be encoded leave nothing behind.
-/

namespace RemoteObjects.Proxy

/-- What a new proxy is made from. -/
structure Plan (ℓ : Type) where
  methods : MethodTable
  args : CallArgs
  addr : Option ServerAddr
  objectId : Option ObjectId
  /-- Whether the object exists already. -/
  attachedOnly : Bool
  /-- Whether to look for a running server. -/
  discovery : Bool
  launcher : Option ℓ
  launchConfig : LaunchConfig
  codec : Codec

namespace Plan

variable {ℓ : Type}

/-- A new object with no arguments and no server yet. -/
def create (methods : MethodTable) : Plan ℓ where
  methods := methods
  args := .empty
  addr := none
  objectId := none
  attachedOnly := false
  discovery := false
  launcher := none
  launchConfig := .standard
  codec := .json

/-- An object that exists on a server. -/
def attach (plan : Plan ℓ) (addr : ServerAddr) (objectId : ObjectId) : Plan ℓ :=
  { plan with addr := some addr, objectId := some objectId, attachedOnly := true }

/-- The bytes of the constructor arguments, if the plan makes sense; attaching needs an address and
an identifier, and no arguments. -/
def encodedArgs (plan : Plan ℓ) : Except Error ByteArray :=
  if plan.attachedOnly then
    if plan.addr.isNone then
      .error (.config "attaching to an existing object requires an explicit address")
    else if plan.objectId.isNone then .error (.config "attaching requires an object id")
    else .ok .empty
  else (plan.codec.encodeArgs plan.args).mapError .codec

end Plan

variable {m : Type → Type} [Monad m] [Effects m] {κ ℓ : Type}

/-- A server that was found: its address, the link to it, and its launcher if it was launched. -/
structure Resolved (κ ℓ : Type) where
  addr : ServerAddr
  link : κ
  launcher : Option ℓ

/-- A discovered server that is alive, if there is one. -/
def discovered (s : Surroundings m κ ℓ) : m (Option (Resolved κ ℓ)) := do
  match ← s.discover with
  | none => return none
  | some addr =>
    let link ← s.connect addr
    if ← (s.client link).reachable then
      Effects.log ⟨.info, "using discovered server", [("addr", addr.display)]⟩
      return some ⟨addr, link, none⟩
    Effects.log ⟨.warn, "discovered server is unreachable", [("addr", addr.display)]⟩
    return none

/-- A server launched for the plan. -/
def launched (s : Surroundings m κ ℓ) (plan : Plan ℓ) : m (Except Error (Resolved κ ℓ)) :=
  match plan.launcher with
  | none => return .error .noServer
  | some launcher => do
    let config := plan.launchConfig.withObjectType plan.methods.typeName
    match ← s.launch launcher config with
    | .error e => return .error (.launch e)
    | .ok port =>
      let addr : ServerAddr := ⟨config.host, port⟩
      Effects.log ⟨.info, "launched server", [("addr", addr.display)]⟩
      return .ok ⟨addr, ← s.connect addr, some launcher⟩

/-- Finds the server for a plan. -/
def resolve (s : Surroundings m κ ℓ) (plan : Plan ℓ) : m (Except Error (Resolved κ ℓ)) := do
  match plan.addr with
  | some addr =>
    let link ← s.connect addr
    let alive ← if plan.attachedOnly then (s.client link).reachable else pure true
    if !alive then return .error (.unreachableServer addr)
    Effects.log ⟨.debug, "using explicit server",
      [("addr", addr.display), ("attached_only", toString plan.attachedOnly)]⟩
    return .ok ⟨addr, link, none⟩
  | none =>
    let found ← if plan.discovery then discovered s else pure none
    match found with
    | some resolved => return .ok resolved
    | none => launched s plan

/-- Makes a proxy.  The creation of its object has only started when the proxy is there. -/
def build (s : Surroundings m κ ℓ) (plan : Plan ℓ) : m (Except Error (Proxy κ ℓ)) := do
  match plan.encodedArgs with
  | .error e => return .error e
  | .ok args =>
    match ← resolve s plan with
    | .error e => return .error e
    | .ok resolved =>
      let objectId ← match plan.objectId with
        | some objectId => pure objectId
        | none => s.freshId
      let creation ← if plan.attachedOnly then pure none else do
        Effects.log ⟨.debug, "requesting remote instance",
          [("object_id", objectId.text), ("addr", resolved.addr.display),
            ("object_type", plan.methods.typeName)]⟩
        let creation ← s.start ⟨resolved.link, plan.methods.typeName, args, objectId⟩
        pure (some creation)
      return .ok {
        methods := plan.methods
        objectId := objectId
        addr := resolved.addr
        link := resolved.link
        codec := plan.codec
        creation := creation
        attachedOnly := plan.attachedOnly
        launcher := resolved.launcher }

/-- Makes a proxy for the object of a descriptor, which has to be of the type of the table. -/
def rehydrate (s : Surroundings m κ ℓ) (methods : MethodTable) (d : Descriptor) (codec : Codec) :
    m (Except Error (Proxy κ ℓ)) := do
  if d.objectType ≠ methods.typeName then
    return .error (.typeMismatch methods.typeName d.objectType)
  let link ← s.connect d.addr
  return .ok {
    methods := methods
    objectId := d.objectId
    addr := d.addr
    link := link
    codec := codec
    creation := none
    attachedOnly := true
    launcher := none }

end RemoteObjects.Proxy
