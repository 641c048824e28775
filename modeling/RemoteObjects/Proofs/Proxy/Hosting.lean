import RemoteObjects.Client.Framed
import RemoteObjects.Proofs.Wire.RoundTrip
import RemoteObjects.Proxy.Build
import RemoteObjects.Proxy.Holdings

/-!
# Servers that host objects

Objects of any kind are hosted by servers that read requests and write responses, and a transport
brings each request to its server once and the reply back.
-/

namespace RemoteObjects.Proxy

variable {σ α β : Type}

/-! ## Objects and servers -/

/-- How an object begins, and what its methods answer and leave behind. -/
structure Semantics (σ : Type) where
  init : CallArgs → σ
  step : σ → String → CallArgs → Outcome × σ

abbrev Objects (σ : Type) : Type := ServerAddr → ObjectId → Option σ

def Objects.set (objects : Objects σ) (addr : ServerAddr) (objectId : ObjectId) (s : σ) :
    Objects σ :=
  fun a i ↦ if a = addr ∧ i = objectId then some s else objects a i

@[simp] theorem Objects.set_self (objects : Objects σ) (addr : ServerAddr) (objectId : ObjectId)
    (s : σ) : objects.set addr objectId s addr objectId = some s := by
  simp [set]

@[simp] theorem Objects.set_set (objects : Objects σ) (addr : ServerAddr) (objectId : ObjectId)
    (s s' : σ) : (objects.set addr objectId s).set addr objectId s' =
      objects.set addr objectId s' := by
  funext a i
  simp only [set]
  split <;> rfl

namespace Semantics

def respond (sem : Semantics σ) (objects : Objects σ) (addr : ServerAddr) :
    Request → Response × Objects σ
  | .ping => (.pong, objects)
  | .create _ objectId args =>
    match Codec.json.decodeArgs args with
    | .error e => (.fault ⟨"BadArgs", e.message⟩, objects)
    | .ok args => (.created, objects.set addr objectId (sem.init args))
  | .call objectId method payload =>
    match objects addr objectId, Codec.json.decodeArgs payload with
    | none, _ => (.fault ⟨"NotFound", objectId.text⟩, objects)
    | some _, .error e => (.fault ⟨"BadArgs", e.message⟩, objects)
    | some s, .ok args =>
      let (outcome, s) := sem.step s method args
      match Codec.json.encodeOutcome outcome with
      | .error e => (.fault ⟨"BadOutcome", e.message⟩, objects)
      | .ok payload => (.returned payload, objects.set addr objectId s)

def reply (sem : Semantics σ) (objects : Objects σ) (addr : ServerAddr) (frame : ByteArray) :
    ByteArray × Objects σ :=
  match Request.decode frame with
  | .error e => ((Response.fault ⟨"BadRequest", e.message⟩).encode, objects)
  | .ok request =>
    let (response, objects) := sem.respond objects addr request
    (response.encode, objects)

end Semantics

/-! ## The surroundings -/

/-- The objects, and the creations with what became of them. -/
structure Site (σ : Type) where
  objects : Objects σ
  creations : List (Creation ServerAddr × Option Settled)
  /-- The creations at whose end somebody has looked. -/
  looked : List Nat

abbrev Hosted (σ : Type) : Type → Type := StateT (Site σ) (Except String)

instance : Effects (Hosted σ) where
  sleep _ := pure ()
  jitter := pure (.finite (.zero false))
  log _ := pure ()
  crash reason := StateT.lift (.error reason)

structure Setting (σ : Type) where
  sem : Semantics σ
  probe : Duration
  freshId : ObjectId
  candidate : Option ServerAddr
  port : Except Launch.Error UInt16

namespace Setting

/-- Takes a frame to the server at an address, once, and brings its reply. -/
def deliver (setting : Setting σ) (addr : ServerAddr) (frame : ByteArray) : Hosted σ ByteArray :=
  modifyGet fun site ↦
    let (reply, objects) := setting.sem.reply site.objects addr frame
    (reply, { site with objects })

def transport (setting : Setting σ) (addr : ServerAddr) : Transport (Hosted σ) where
  call frame := do return .ok (← setting.deliver addr frame)
  callWithin _ frame := do return some (.ok (← setting.deliver addr frame))

def client (setting : Setting σ) (addr : ServerAddr) : Client (Hosted σ) :=
  .framed (setting.transport addr) setting.probe

/-- Carries out a creation unless that was done before. -/
def carryOut (setting : Setting σ) (creation : Nat) : Hosted σ Settled := do
  match (← get).creations[creation]? with
  | none => return .crashed "no such creation"
  | some (_, some settled) => return settled
  | some (c, none) =>
    let result ← (setting.client c.link).create c.objectType c.args c.objectId
    let settled := Settled.finished result
    modify fun site ↦
      { site with creations := site.creations.set creation (c, some settled) }
    return settled

def surroundings (setting : Setting σ) (ℓ : Type) : Surroundings (Hosted σ) ServerAddr ℓ where
  connect addr := pure addr
  client := setting.client
  freshId := pure setting.freshId
  start c := modifyGet fun site ↦
    (site.creations.length, { site with creations := site.creations ++ [(c, none)] })
  poll creation := do return ((← get).creations[creation]?).bind Prod.snd
  join := setting.carryOut
  firstLook creation := modifyGet fun site ↦
    (creation ∉ site.looked, { site with looked := creation :: site.looked })
  discover := pure setting.candidate
  launch _ _ := pure setting.port
  release _ := pure true
  held _ := pure true
  shutdown _ := pure (.ok ())

end Setting

/-! ## Running -/

/-- Whether a run ends with a result and leaves a site behind. -/
def Runs (x : Hosted σ α) (site : Site σ) (a : α) (site' : Site σ) : Prop :=
  x.run site = .ok (a, site')

theorem Runs.pure (a : α) (site : Site σ) : Runs (Pure.pure a : Hosted σ α) site a site := rfl

theorem Runs.bind {x : Hosted σ α} {f : α → Hosted σ β} {site site' site'' : Site σ} {a : α} {b : β}
    (hx : Runs x site a site') (hf : Runs (f a) site' b site'') :
    Runs (x >>= f) site b site'' := by
  have hx : x site = .ok (a, site') := hx
  change (x site >>= fun r ↦ f r.1 r.2) = .ok (b, site'')
  rw [hx]
  exact hf

/-! ## Requests and their responses -/

theorem Semantics.reply_encode (sem : Semantics σ) (objects : Objects σ) (addr : ServerAddr)
    (request : Request) :
    sem.reply objects addr request.encode =
      ((sem.respond objects addr request).1.encode, (sem.respond objects addr request).2) := by
  rw [reply, Request.decode_encode]

theorem responseOf_encode (r : Response) : Client.responseOf (.ok r.encode) = .ok r := by
  change (Response.decode r.encode).mapError Client.Error.wire = _
  rw [Response.decode_encode]
  rfl

theorem answerOf_encode {outcome : Outcome} (h : outcome.Sendable) :
    answerOf .json (.ok (Wire.encodeTree outcome.tree)) = outcome.mapError .remote := by
  have hdecode := (decodeOutcome_encodeOutcome outcome h).2
  change ((Codec.json.decodeOutcome _).mapError Error.codec >>= fun outcome ↦
    outcome.mapError Error.remote) = _
  rw [hdecode]
  rfl

namespace Setting

variable (setting : Setting σ) (addr : ServerAddr)

theorem deliver_runs {request : Request} {site : Site σ} {response : Response}
    {objects : Objects σ}
    (h : setting.sem.respond site.objects addr request = (response, objects)) :
    Runs (setting.deliver addr request.encode) site response.encode
      { site with objects := objects } := by
  have hreply := setting.sem.reply_encode site.objects addr request
  rw [h] at hreply
  simp only [Runs, StateT.run, deliver, modifyGet, MonadStateOf.modifyGet, StateT.modifyGet, hreply]
  rfl

/-- The reply is decoded to the response that the server encoded. -/
theorem create_runs (objectType : String) (objectId : ObjectId) {args : CallArgs}
    (h : args.Sendable) (site : Site σ) :
    Runs ((setting.client addr).create objectType (Wire.encodeTree args.tree) objectId) site
      (.ok ()) { site with objects := site.objects.set addr objectId (setting.sem.init args) } := by
  have hdecode := (decodeArgs_encodeArgs args h).2
  have hrespond : setting.sem.respond site.objects addr
      (.create objectType objectId (Wire.encodeTree args.tree)) =
        (.created, site.objects.set addr objectId (setting.sem.init args)) := by
    simp only [Semantics.respond, hdecode]
  refine Runs.bind ((setting.deliver_runs addr hrespond).bind (Runs.pure _ _)) ?_
  rw [responseOf_encode]
  exact Runs.pure _ _

theorem call_runs {objectId : ObjectId} (method : String) {args : CallArgs} (h : args.Sendable)
    {site : Site σ} {s : σ} (hs : site.objects addr objectId = some s) :
    Runs ((setting.client addr).call objectId method (Wire.encodeTree args.tree)) site
      (.ok (Wire.encodeTree (setting.sem.step s method args).1.tree))
      { site with
        objects := site.objects.set addr objectId (setting.sem.step s method args).2 } := by
  have hdecode := (decodeArgs_encodeArgs args h).2
  have hrespond : setting.sem.respond site.objects addr
      (.call objectId method (Wire.encodeTree args.tree)) =
        (.returned (Wire.encodeTree (setting.sem.step s method args).1.tree),
          site.objects.set addr objectId (setting.sem.step s method args).2) := by
    simp only [Semantics.respond, hs, hdecode]
    rfl
  refine Runs.bind ((setting.deliver_runs addr hrespond).bind (Runs.pure _ _)) ?_
  rw [responseOf_encode]
  exact Runs.pure _ _

theorem reachable_runs (site : Site σ) :
    Runs (setting.client addr).reachable site true site := by
  have hpong : setting.sem.respond site.objects addr .ping = (.pong, site.objects) := rfl
  refine Runs.bind ((setting.deliver_runs addr hpong).bind (Runs.pure _ _)) ?_
  rw [Option.map_some, responseOf_encode]
  exact Runs.pure _ _

/-! ## Creations and proxies -/

variable {setting addr} {site : Site σ}

theorem carryOut_settled {creation : Nat} {c : Creation ServerAddr} {settled : Settled}
    (h : site.creations[creation]? = some (c, some settled)) :
    Runs (setting.carryOut creation) site settled site := by
  refine Runs.bind (a := site) rfl ?_
  rw [h]
  exact Runs.pure _ _

theorem carryOut_pending {creation : Nat} {objectType : String} {objectId : ObjectId}
    {args : CallArgs} (hargs : args.Sendable)
    (h : site.creations[creation]? =
      some (⟨addr, objectType, Wire.encodeTree args.tree, objectId⟩, none)) :
    Runs (setting.carryOut creation) site (.finished (.ok ()))
      { site with
        objects := site.objects.set addr objectId (setting.sem.init args)
        creations := site.creations.set creation (⟨addr, objectType, Wire.encodeTree args.tree,
          objectId⟩, some (.finished (.ok ()))) } := by
  have hcreate := setting.create_runs addr objectType objectId hargs site
  refine Runs.bind (a := site) rfl ?_
  rw [h]
  exact hcreate.bind (Runs.bind rfl (Runs.pure _ _))

theorem look_runs {ℓ : Type} (p : Proxy ServerAddr ℓ) (creation : Nat) (site : Site σ) :
    Runs (p.look (setting.surroundings ℓ) creation (.finished (.ok ()))) site (.ok ())
      { site with looked := creation :: site.looked } := by
  refine Runs.bind rfl ?_
  simp only [Settled.cause?]
  split <;> exact Runs.pure _ _

/-! ## New proxies -/

variable {ℓ : Type}

def launchedFor (setting : Setting σ) (plan : Plan ℓ) : Except Error (Resolved ServerAddr ℓ) :=
  match plan.launcher, setting.port with
  | none, _ => .error .noServer
  | some _, .error e => .error (.launch e)
  | some launcher, .ok port =>
    let addr := ⟨(plan.launchConfig.withObjectType plan.methods.typeName).host, port⟩
    .ok ⟨addr, addr, some launcher⟩

def found (setting : Setting σ) (plan : Plan ℓ) : Except Error (Resolved ServerAddr ℓ) :=
  match plan.addr, plan.discovery, setting.candidate with
  | some addr, _, _ => .ok ⟨addr, addr, none⟩
  | none, true, some addr => .ok ⟨addr, addr, none⟩
  | none, _, _ => setting.launchedFor plan

theorem found_link {plan : Plan ℓ} {server : Resolved ServerAddr ℓ}
    (h : setting.found plan = .ok server) : server.link = server.addr := by
  have hlaunched (h : setting.launchedFor plan = .ok server) : server.link = server.addr := by
    simp only [launchedFor] at h
    split at h <;> cases h
    rfl
  simp only [found] at h
  split at h
  · cases h
    rfl
  · cases h
    rfl
  · exact hlaunched h

theorem launched_runs (plan : Plan ℓ) (site : Site σ) :
    Runs (launched (setting.surroundings ℓ) plan) site (setting.launchedFor plan) site := by
  simp only [launched, launchedFor]
  cases plan.launcher with
  | none => exact Runs.pure _ _
  | some launcher =>
      refine Runs.bind rfl ?_
      cases setting.port with
      | error e => exact Runs.pure _ _
      | ok port => exact Runs.pure _ _

theorem discovered_runs (site : Site σ) :
    Runs (discovered (setting.surroundings ℓ)) site
      (setting.candidate.map fun addr ↦ ⟨addr, addr, none⟩) site := by
  refine Runs.bind rfl ?_
  cases setting.candidate with
  | none => exact Runs.pure _ _
  | some addr =>
      refine Runs.bind rfl ((setting.reachable_runs addr site).bind ?_)
      exact Runs.pure _ _

theorem resolve_runs (plan : Plan ℓ) (site : Site σ) :
    Runs (resolve (setting.surroundings ℓ) plan) site (setting.found plan) site := by
  simp only [resolve, found]
  cases plan.addr with
  | some addr =>
      refine Runs.bind rfl ?_
      cases plan.attachedOnly with
      | false => exact Runs.pure _ _
      | true => exact (setting.reachable_runs addr site).bind (Runs.pure _ _)
  | none =>
      cases plan.discovery with
      | false => exact launched_runs plan site
      | true =>
          refine (discovered_runs site).bind ?_
          cases setting.candidate with
          | none => exact launched_runs plan site
          | some addr => exact Runs.pure _ _

/-- The proxy of a new object that is created with so many creations before it. -/
def newborn (setting : Setting σ) (plan : Plan ℓ) (server : Resolved ServerAddr ℓ)
    (creation : Nat) : Proxy ServerAddr ℓ :=
  ⟨plan.methods, plan.objectId.getD setting.freshId, server.addr, server.link, plan.codec,
    some creation, false, server.launcher⟩

theorem build_runs {plan : Plan ℓ} (hnew : plan.attachedOnly = false) (hcodec : plan.codec = .json)
    {server : Resolved ServerAddr ℓ} (hfound : setting.found plan = .ok server) (site : Site σ) :
    Runs (build (setting.surroundings ℓ) plan) site
      (.ok (setting.newborn plan server site.creations.length))
      { site with creations := site.creations ++ [(⟨server.link, plan.methods.typeName,
        Wire.encodeTree plan.args.tree, plan.objectId.getD setting.freshId⟩, none)] } := by
  have hargs : plan.encodedArgs = .ok (Wire.encodeTree plan.args.tree) := by
    simp only [Plan.encodedArgs, hnew, hcodec]
    rfl
  have hresolve : Runs (resolve (setting.surroundings ℓ) plan) site (.ok server) site := by
    rw [← hfound]
    exact resolve_runs plan site
  simp only [build, hargs, hnew, newborn]
  refine hresolve.bind ?_
  cases plan.objectId with
  | none => rfl
  | some objectId => rfl

end Setting

end RemoteObjects.Proxy
