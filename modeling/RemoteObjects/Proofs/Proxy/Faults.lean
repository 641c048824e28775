import RemoteObjects.Proofs.Client.Exchanges
import RemoteObjects.Proofs.Proxy.Calls
import RemoteObjects.Proofs.Proxy.Transparency

/-!
# How faults reach the caller

A fault comes in two ways: the server refuses a request, or the object answers so and the server
returns the encoded outcome.  Whoever calls a method cannot tell the one from the other, and
neither is taken for a failure of the network that another try could cure.  Only a fault that
refuses the creation is told from the rest, since there is no object then.
-/

namespace RemoteObjects.Proxy

open Client (Route Sent Tells)
open Venture (Affairs)

variable {σ κ ℓ : Type}

/-! ## Calls over a network -/

/-- What lies between proxies and their servers, and the creations with what became of them. -/
structure Yard (σ κ : Type) where
  net : σ
  creations : List (Creation κ × Option Settled)
  /-- The creations at whose end somebody has looked. -/
  looked : List Nat

/-- Ways to servers, and whether calls are tried again.  All that has nothing to do with calls and
creations is left open. -/
structure Grounds (σ κ ℓ : Type) where
  route : κ → Route σ
  probe : Duration
  policy : Option RetryPolicy
  others : Surroundings (Venture (Yard σ κ) Sent) κ ℓ

/-- A way that leaves everything else in the yard as it is. -/
def Yard.route (κ : Type) (route : Route σ) : Route (Yard σ κ) where
  exchange frame := fun y ↦
    ((route.exchange frame y.net).1, { y with net := (route.exchange frame y.net).2 })
  inTime limit frame y := route.inTime limit frame y.net
  giveUp limit frame y := { y with net := route.giveUp limit frame y.net }

/-- The state of affairs, but that somebody has looked at these creations. -/
def Yard.seen (s : Affairs (Yard σ κ) Sent) (looked : List Nat) : Affairs (Yard σ κ) Sent :=
  { s with scene := { s.scene with looked := looked } }

def Yard.after (route : Route σ) (frame : ByteArray) (s : Affairs (Yard σ κ) Sent) :
    Affairs (Yard σ κ) Sent :=
  ⟨{ s.scene with net := (route.exchange frame s.scene.net).2 }, s.draws,
    s.deeds ++ [.tried ⟨none, frame⟩]⟩

namespace Grounds

def client (g : Grounds σ κ ℓ) (link : κ) : Client (Venture (Yard σ κ) Sent) :=
  (Client.framed (Yard.route κ (g.route link)).transport g.probe).maybeRetrying g.policy

/-- Carries out a creation unless that was done before, be it that the background comes to it or
that somebody waits for it. -/
def carryOut (g : Grounds σ κ ℓ) (creation : Nat) : Venture (Yard σ κ) Sent Settled := do
  match (← Venture.onScene get).creations[creation]? with
  | none => return .crashed "no such creation"
  | some (_, some settled) => return settled
  | some (c, none) =>
    let settled ← tryCatch
      (do return .finished (← (g.client c.link).create c.objectType c.args c.objectId))
      fun reason ↦ return .crashed reason
    Venture.onScene (modify fun y ↦
      { y with creations := y.creations.set creation (c, some settled) })
    return settled

def surroundings (g : Grounds σ κ ℓ) : Surroundings (Venture (Yard σ κ) Sent) κ ℓ :=
  { g.others with
    client := g.client
    start := fun c ↦ Venture.onScene (modifyGet fun y ↦
      (y.creations.length, { y with creations := y.creations ++ [(c, none)] }))
    poll := fun creation ↦ do
      return ((← Venture.onScene get).creations[creation]?).bind Prod.snd
    join := g.carryOut
    firstLook := fun creation ↦ Venture.onScene (modifyGet fun y ↦
      (creation ∉ y.looked, { y with looked := creation :: y.looked })) }

/-- The background comes to the creation of a proxy, which waits for nobody. -/
def background (g : Grounds σ κ ℓ) (p : Proxy κ ℓ) : Venture (Yard σ κ) Sent Unit :=
  match p.creation with
  | none => pure ()
  | some creation => do
    let _ ← g.carryOut creation

end Grounds

/-- Whether the object of a proxy was there before the proxy or has been created. -/
def Ready (p : Proxy κ ℓ) (y : Yard σ κ) : Prop :=
  ∀ creation, p.creation = some creation →
    ∃ c, y.creations[creation]? = some (c, some (.finished (.ok ())))

/-- Whether a reply brings an outcome: the encoded outcome, or a fault of the server. -/
def Conveys (reply : Except Transport.Error ByteArray) (outcome : Outcome) : Prop :=
  (∃ payload, Tells reply (.returned payload) ∧ Codec.json.decodeOutcome payload = .ok outcome) ∨
    ∃ f, outcome = .error f ∧ Tells reply (.fault f)

def operation (p : Proxy κ ℓ) (call : Call) : Client.Operation :=
  .call p.objectId call.method (Wire.encodeTree call.args.tree)

def frame (p : Proxy κ ℓ) (call : Call) : ByteArray := (p.operation call).request.encode

def invokes {m : Type → Type} [Monad m] [Effects m] (s : Surroundings m κ ℓ) (p : Proxy κ ℓ) :
    List Call → m (List (Except Error Json.Value))
  | [] => return []
  | call :: calls => do
    let result ← p.invoke s call.method call.args
    return result :: (← p.invokes s calls)

section

open Venture (answers scenes)

variable {g : Grounds σ κ ℓ} {jitter : Nat → Binary64} {p : Proxy κ ℓ}
  {s : Affairs (Yard σ κ) Sent}

theorem scenes_yard (route : Route σ) (frame : ByteArray) (y : Yard σ κ) (tries : Nat) :
    scenes ((Yard.route κ route).exchange frame) y tries =
      { y with net := scenes (route.exchange frame) y.net tries } := by
  induction tries generalizing y with
  | zero => rfl
  | succ tries ih =>
      rw [← Venture.scenes_next, ih]
      rfl

theorem answers_yard (route : Route σ) (frame : ByteArray) (y : Yard σ κ) (tries : Nat) :
    answers ((Yard.route κ route).exchange frame) y tries =
      answers (route.exchange frame) y.net tries := by
  rw [answers, scenes_yard]
  rfl

variable (jitter) in
/-- Whatever comes back, one frame was enough. -/
theorem perform_runs_of_reply {link : κ} {o : Client.Operation} {bytes : ByteArray}
    (h : ((g.route link).exchange o.request.encode s.scene.net).1 = .ok bytes) :
    Venture.Runs jitter ((g.client link).perform o) s
      (Client.responseOf (.ok bytes) >>= o.reading)
      (Yard.after (g.route link) o.request.encode s) :=
  Client.perform_maybeRetrying_runs (Prod.ext h rfl)

/-! ### Waiting for the object -/

theorem carryOut_settled {creation : Nat} {c : Creation κ} {settled : Settled}
    (h : s.scene.creations[creation]? = some (c, some settled)) :
    Venture.Runs jitter (g.carryOut creation) s settled s := by
  refine Venture.Runs.bind (a := s.scene) rfl ?_
  rw [h]
  exact .pure _

theorem firstLook_runs (creation : Nat) :
    Venture.Runs jitter (g.surroundings.firstLook creation) s (decide (creation ∉ s.scene.looked))
      (Yard.seen s (creation :: s.scene.looked)) := rfl

theorem poll_runs {creation : Nat} {c : Creation κ} {settled : Settled}
    (h : s.scene.creations[creation]? = some (c, some settled)) :
    Venture.Runs jitter (g.surroundings.poll creation) s (some settled) s := by
  have hpoll : (s.scene.creations[creation]?).bind Prod.snd = some settled := by
    rw [h]
    rfl
  rw [← hpoll]
  rfl

variable (g jitter p s) in
theorem look_runs (creation : Nat) (settled : Settled) :
    ∃ looked, Venture.Runs jitter (p.look g.surroundings creation settled) s
      (p.verdict creation settled) (Yard.seen s looked) := by
  unfold verdict
  refine ⟨creation :: s.scene.looked, (firstLook_runs creation).bind ?_⟩
  cases decide (creation ∉ s.scene.looked) with
  | false =>
      cases settled.cause? creation with
      | none => exact .pure _
      | some cause => exact .pure _
  | true =>
      cases settled.cause? creation with
      | none => exact (Venture.log_runs _).bind (.pure _)
      | some cause => exact (Venture.log_runs _).bind (.pure _)

variable (g jitter) in
theorem waitReady_runs_of_ready (hready : p.Ready s.scene) :
    ∃ looked, Venture.Runs jitter (p.waitReady g.surroundings) s (.ok ())
      (Yard.seen s looked) := by
  unfold waitReady
  cases hcreation : p.creation with
  | none => exact ⟨s.scene.looked, .pure _⟩
  | some creation =>
      obtain ⟨c, hc⟩ := hready creation hcreation
      obtain ⟨looked, hlook⟩ := look_runs g jitter p s creation (.finished (.ok ()))
      exact ⟨looked, (carryOut_settled hc).bind hlook⟩

variable (g jitter) in
theorem state_runs_of_ready (hready : p.Ready s.scene) :
    ∃ looked, Venture.Runs jitter (p.state g.surroundings) s .ready
      (Yard.seen s looked) := by
  unfold state
  cases hcreation : p.creation with
  | none => exact ⟨s.scene.looked, .pure _⟩
  | some creation =>
      obtain ⟨c, hc⟩ := hready creation hcreation
      obtain ⟨looked, hlook⟩ := look_runs g jitter p s creation (.finished (.ok ()))
      exact ⟨looked, (poll_runs hc).bind (hlook.bind (.pure _))⟩

end

section

open Venture (answers scenes course)

variable {g : Grounds σ κ ℓ} {jitter : Nat → Binary64} {p : Proxy κ ℓ} {call : Call}
  {s s' : Affairs (Yard σ κ) Sent}

/-! ### Both ways of a fault -/

theorem decode_frame (p : Proxy κ ℓ) (call : Call) :
    Request.decode (p.frame call) =
      .ok (.call p.objectId call.method (Wire.encodeTree call.args.tree)) :=
  Request.decode_encode _

theorem conveys_fault (f : RemoteFault) : Conveys (.ok (Response.fault f).encode) (.error f) :=
  .inr ⟨f, rfl, _, rfl, Response.decode_encode _⟩

theorem conveys_returned {outcome : Outcome} (h : outcome.Sendable) :
    Conveys (.ok (Response.returned (Wire.encodeTree outcome.tree)).encode) outcome :=
  .inl ⟨_, ⟨_, rfl, Response.decode_encode _⟩, (decodeOutcome_encodeOutcome outcome h).2⟩

theorem exists_of_conveys {reply : Except Transport.Error ByteArray} {outcome : Outcome}
    (h : Conveys reply outcome) : ∃ bytes, reply = .ok bytes := by
  rcases h with ⟨_, ⟨bytes, hbytes, -⟩, -⟩ | ⟨_, -, bytes, hbytes, -⟩
  · exact ⟨bytes, hbytes⟩
  · exact ⟨bytes, hbytes⟩

theorem answerOf_of_conveys {reply : Except Transport.Error ByteArray} {outcome : Outcome}
    (h : Conveys reply outcome) :
    answerOf .json (Client.responseOf reply >>= Client.returned) = outcome.mapError .remote := by
  rcases h with ⟨payload, htells, houtcome⟩ | ⟨f, rfl, htells⟩
  · have hanswer : answerOf .json (.ok payload) = (Codec.json.decodeOutcome payload).mapError .codec
        >>= fun outcome ↦ outcome.mapError .remote := rfl
    rw [Client.responseOf_of_tells htells]
    refine hanswer.trans ?_
    rw [houtcome]
    rfl
  · rw [Client.responseOf_of_tells htells]
    rfl

/-- An outcome that is brought in one way or the other is what the caller gets, after one frame. -/
theorem invoke_runs_of_conveys {outcome : Outcome} (hjson : p.codec = .json)
    (hready : p.Ready s.scene) (hpublic : p.methods.contains call.method = true)
    (h : Conveys ((g.route p.link).exchange (p.frame call) s.scene.net).1 outcome) :
    ∃ looked, Venture.Runs jitter (p.invoke g.surroundings call.method call.args) s
      (outcome.mapError .remote)
      (Yard.after (g.route p.link) (p.frame call) (Yard.seen s looked)) := by
  obtain ⟨looked, hwait⟩ := waitReady_runs_of_ready g jitter hready
  obtain ⟨bytes, hbytes⟩ := exists_of_conveys h
  have hcall : Venture.Runs jitter ((g.client p.link).perform (p.operation call))
      (Yard.seen s looked) _ _ := perform_runs_of_reply jitter hbytes
  rw [hbytes] at h
  refine ⟨looked, ?_⟩
  simp only [invoke, hpublic, hjson]
  rw [← answerOf_of_conveys h]
  exact hwait.bind (hcall.bind (.pure _))

/-- Whether the server answers these calls, one after the other, with these outcomes. -/
def Grounds.Brings (g : Grounds σ κ ℓ) (p : Proxy κ ℓ) : σ → List (Call × Outcome) → Prop
  | _, [] => True
  | net, (call, outcome) :: rest =>
    p.methods.contains call.method = true ∧
      Conveys ((g.route p.link).exchange (p.frame call) net).1 outcome ∧
      g.Brings p ((g.route p.link).exchange (p.frame call) net).2 rest

theorem invokes_runs_cons {calls : List Call} {s₁ : Affairs (Yard σ κ) Sent}
    {r : Except Error Json.Value} {rs : List (Except Error Json.Value)}
    (hfirst : Venture.Runs jitter (p.invoke g.surroundings call.method call.args) s r s₁)
    (hrest : Venture.Runs jitter (p.invokes g.surroundings calls) s₁ rs s') :
    Venture.Runs jitter (p.invokes g.surroundings (call :: calls)) s (r :: rs) s' :=
  hfirst.bind (hrest.bind (.pure _))

theorem invokes_runs_of_brings (hjson : p.codec = .json) {calls : List (Call × Outcome)}
    (hready : p.Ready s.scene) (h : g.Brings p s.scene.net calls) :
    ∃ s', Venture.Runs jitter (p.invokes g.surroundings (calls.map Prod.fst)) s
        (calls.map fun c ↦ c.2.mapError .remote) s' ∧
      p.Ready s'.scene ∧ s'.draws = s.draws ∧
      s'.deeds = s.deeds ++ calls.map fun c ↦ .tried ⟨none, p.frame c.1⟩ := by
  induction calls generalizing s with
  | nil => exact ⟨s, .pure _, hready, rfl, by simp⟩
  | cons c calls ih =>
      obtain ⟨call, outcome⟩ := c
      obtain ⟨hpublic, hconveys, hrest⟩ := h
      obtain ⟨looked, hfirst⟩ := invoke_runs_of_conveys hjson hready hpublic hconveys
      have hready₁ : p.Ready
          (Yard.after (g.route p.link) (p.frame call) (Yard.seen s looked)).scene := hready
      obtain ⟨s', hcalls, hready', hdraws, hdeeds⟩ := ih hready₁ hrest
      refine ⟨s', invokes_runs_cons hfirst hcalls, hready', hdraws, ?_⟩
      rw [hdeeds, List.map_cons]
      exact List.append_assoc _ _ _

/-- Nothing but a reply to the frame of the call tells the caller of a fault. -/
theorem conveys_of_runs (hjson : p.codec = .json) {f : RemoteFault}
    (h : Venture.Runs jitter (p.invoke g.surroundings call.method call.args) s
      (.error (.remote f)) s') :
    ∃ a tries ds, Venture.Runs jitter (p.waitReady g.surroundings) s (.ok ()) a ∧
      s'.deeds = a.deeds ++ course ⟨none, p.frame call⟩ ds ∧
      Conveys (answers ((g.route p.link).exchange (p.frame call)) a.scene.net tries)
        (.error f) := by
  cases ends_of_runs h with
  | @reported a _ asked _ _ hwait hasked hreports =>
      have hreply : ∃ reply, asked = some reply := by
        rcases (hreports.remote_iff f).mp rfl with h | ⟨outcome, h, -⟩
        · exact ⟨_, h⟩
        · exact ⟨_, h⟩
      obtain ⟨reply, rfl⟩ := hreply
      obtain ⟨payload, hpayload, hcall⟩ := hasked
      rw [hjson] at hpayload
      cases hpayload
      have hperform :
          Venture.Runs jitter ((g.client p.link).perform (p.operation call)) a reply s' := hcall
      obtain ⟨tries, ds, -, hdeeds, hclass⟩ := Client.replied_of_runs hperform
      rw [answers_yard] at hclass
      refine ⟨a, tries, ds, hwait, hdeeds, ?_⟩
      rcases (hreports.remote_iff f).mp rfl with h | ⟨outcome, h, houtcome⟩
      · cases h
        rcases hclass with hclass | ⟨_, _, hexhausted⟩
        · exact .inr ⟨f, rfl, (hclass.remote_iff f).mp rfl⟩
        · cases hexhausted
      · cases h
        rw [hjson] at houtcome
        rcases hclass with hclass | ⟨_, _, hexhausted⟩
        · exact .inl ⟨outcome, (hclass.ok_iff outcome).mp rfl, houtcome⟩
        · cases hexhausted

/-! ### Creations that are refused -/

def Creation.operation (c : Creation κ) : Client.Operation :=
  .create c.objectType c.args c.objectId

def Refused (p : Proxy κ ℓ) (f : RemoteFault) (y : Yard σ κ) : Prop :=
  ∃ creation c, p.creation = some creation ∧
    y.creations[creation]? = some (c, some (.finished (.error (.remote f))))

/-- Whether the creation of a proxy is still to be asked for, and the answer will be a fault. -/
def Grounds.Refuses (g : Grounds σ κ ℓ) (p : Proxy κ ℓ) (f : RemoteFault) (c : Creation κ)
    (y : Yard σ κ) : Prop :=
  ∃ creation, p.creation = some creation ∧ y.creations[creation]? = some (c, none) ∧
    Tells ((g.route c.link).exchange c.operation.request.encode y.net).1 (.fault f)

/-- What a call comes to if the creation was refused. -/
def denial (p : Proxy κ ℓ) (f : RemoteFault) (method : String) : Error :=
  if p.methods.contains method then .creation p.objectId p.addr (.remote f)
  else .invalidMethod p.objectType method

variable (jitter) in
theorem carryOut_runs_of_fault {f : RemoteFault} {c : Creation κ} {creation : Nat}
    (hc : s.scene.creations[creation]? = some (c, none))
    (h : Tells ((g.route c.link).exchange c.operation.request.encode s.scene.net).1 (.fault f)) :
    ∃ s', Venture.Runs jitter (g.carryOut creation) s (.finished (.error (.remote f))) s' ∧
      s'.scene.creations[creation]? = some (c, some (.finished (.error (.remote f)))) ∧
      s'.draws = s.draws ∧ s'.deeds = s.deeds ++ [.tried ⟨none, c.operation.request.encode⟩] := by
  obtain ⟨bytes, hbytes, -⟩ := id h
  have hcreate : Venture.Runs jitter ((g.client c.link).perform c.operation) s
      (.error (.remote f)) (Yard.after (g.route c.link) c.operation.request.encode s) := by
    have hruns := perform_runs_of_reply jitter hbytes
    rw [hbytes] at h
    rw [Client.responseOf_of_tells h] at hruns
    exact hruns
  have hlt : creation < s.scene.creations.length := (List.getElem?_eq_some_iff.mp hc).1
  have hfinished := hcreate.bind (f := fun result ↦ pure (Settled.finished result)) (.pure _)
  refine ⟨⟨{ (Yard.after (g.route c.link) c.operation.request.encode s).scene with
      creations := s.scene.creations.set creation (c, some (.finished (.error (.remote f)))) },
    s.draws, _⟩, ?_, List.getElem?_set_self hlt, rfl, rfl⟩
  refine Venture.Runs.bind (a := s.scene) rfl ?_
  rw [hc]
  exact (hfinished.tryCatch _).bind (Venture.Runs.bind rfl (.pure _))

theorem waitReady_runs_of_refused {f : RemoteFault} (h : p.Refused f s.scene) :
    ∃ looked, Venture.Runs jitter (p.waitReady g.surroundings) s
      (.error (.creation p.objectId p.addr (.remote f))) (Yard.seen s looked) := by
  obtain ⟨creation, c, hcreation, hc⟩ := h
  obtain ⟨looked, hlook⟩ := look_runs g jitter p s creation (.finished (.error (.remote f)))
  refine ⟨looked, ?_⟩
  unfold waitReady
  rw [hcreation]
  exact (carryOut_settled hc).bind hlook

theorem waitReady_runs_of_refuses {f : RemoteFault} {c : Creation κ}
    (h : g.Refuses p f c s.scene) :
    ∃ s', Venture.Runs jitter (p.waitReady g.surroundings) s
        (.error (.creation p.objectId p.addr (.remote f))) s' ∧
      p.Refused f s'.scene ∧ s'.draws = s.draws ∧
      s'.deeds = s.deeds ++ [.tried ⟨none, c.operation.request.encode⟩] := by
  obtain ⟨creation, hcreation, hc, htells⟩ := h
  obtain ⟨s₁, hcarry, hc, hdraws, hdeeds⟩ := carryOut_runs_of_fault jitter hc htells
  obtain ⟨looked, hlook⟩ := look_runs g jitter p s₁ creation (.finished (.error (.remote f)))
  refine ⟨Yard.seen s₁ looked, ?_, ⟨creation, c, hcreation, hc⟩, hdraws, hdeeds⟩
  unfold waitReady
  rw [hcreation]
  exact hcarry.bind hlook

theorem denied_of_wait {f : RemoteFault} (hpublic : p.methods.contains call.method = true)
    (h : Venture.Runs jitter (p.waitReady g.surroundings) s
      (.error (.creation p.objectId p.addr (.remote f))) s') :
    Venture.Runs jitter (p.invoke g.surroundings call.method call.args) s
      (.error (p.denial f call.method)) s' := by
  simp only [invoke, denial, hpublic]
  exact h.bind (.pure _)

theorem denied_of_hidden (hhidden : p.methods.contains call.method = false) (f : RemoteFault) :
    Venture.Runs jitter (p.invoke g.surroundings call.method call.args) s
      (.error (p.denial f call.method)) s := by
  simp only [invoke, denial, hhidden]
  exact .pure _

/-! ### Calls while the background is at work -/

/-- What comes next: a call, or that the background comes to the creation. -/
inductive Turn where
  | call (call : Call)
  | background

/-- What is answered in a turn if the creation is refused. -/
def Turn.denials (p : Proxy κ ℓ) (f : RemoteFault) : Turn → List (Except Error Json.Value)
  | .call call => [.error (p.denial f call.method)]
  | .background => []

/-- Whether a turn needs the creation to be over, or brings it about. -/
def Turn.wakes (p : Proxy κ ℓ) : Turn → Bool
  | .call call => p.methods.contains call.method
  | .background => true

def Turn.play (g : Grounds σ κ ℓ) (p : Proxy κ ℓ) :
    Turn → Venture (Yard σ κ) Sent (List (Except Error Json.Value))
  | .call call => do return [← p.invoke g.surroundings call.method call.args]
  | .background => do
    g.background p
    return []

def plays (g : Grounds σ κ ℓ) (p : Proxy κ ℓ) :
    List Turn → Venture (Yard σ κ) Sent (List (Except Error Json.Value))
  | [] => return []
  | turn :: turns => do
    let results ← turn.play g p
    return results ++ (← p.plays g turns)

theorem background_runs_of_refused {f : RemoteFault} (h : p.Refused f s.scene) :
    Venture.Runs jitter (g.background p) s () s := by
  obtain ⟨creation, c, hcreation, hc⟩ := h
  unfold Grounds.background
  rw [hcreation]
  exact (carryOut_settled hc).bind (.pure _)

theorem background_runs_of_refuses {f : RemoteFault} {c : Creation κ}
    (h : g.Refuses p f c s.scene) :
    ∃ s', Venture.Runs jitter (g.background p) s () s' ∧ p.Refused f s'.scene ∧
      s'.draws = s.draws ∧ s'.deeds = s.deeds ++ [.tried ⟨none, c.operation.request.encode⟩] := by
  obtain ⟨creation, hcreation, hc, htells⟩ := h
  obtain ⟨s', hcarry, hc, hdraws, hdeeds⟩ := carryOut_runs_of_fault jitter hc htells
  refine ⟨s', ?_, ⟨creation, c, hcreation, hc⟩, hdraws, hdeeds⟩
  unfold Grounds.background
  rw [hcreation]
  exact hcarry.bind (.pure _)

/-- A turn after the creation was refused sends nothing. -/
theorem play_runs_of_refused {f : RemoteFault} (h : p.Refused f s.scene) (turn : Turn) :
    ∃ looked, Venture.Runs jitter (turn.play g p) s (turn.denials p f) (Yard.seen s looked) := by
  cases turn with
  | background => exact ⟨s.scene.looked, (background_runs_of_refused h).bind (.pure _)⟩
  | call call =>
      cases hpublic : p.methods.contains call.method with
      | false => exact ⟨s.scene.looked, (denied_of_hidden hpublic f).bind (.pure _)⟩
      | true =>
          obtain ⟨looked, hwait⟩ := waitReady_runs_of_refused h
          exact ⟨looked, (denied_of_wait hpublic hwait).bind (.pure _)⟩

variable (jitter) in
/-- A turn before the creation was carried out leaves it so, or has it refused. -/
theorem play_runs_of_refuses {f : RemoteFault} {c : Creation κ} (h : g.Refuses p f c s.scene)
    (turn : Turn) : ∃ s', Venture.Runs jitter (turn.play g p) s (turn.denials p f) s' ∧
      (turn.wakes p = false ∧ s' = s ∨
        turn.wakes p = true ∧ p.Refused f s'.scene ∧ s'.draws = s.draws ∧
          s'.deeds = s.deeds ++ [.tried ⟨none, c.operation.request.encode⟩]) := by
  cases turn with
  | background =>
      obtain ⟨s', hrun, hafter⟩ := background_runs_of_refuses h
      exact ⟨s', hrun.bind (.pure _), .inr ⟨rfl, hafter⟩⟩
  | call call =>
      cases hpublic : p.methods.contains call.method with
      | false => exact ⟨s, (denied_of_hidden hpublic f).bind (.pure _), .inl ⟨hpublic, rfl⟩⟩
      | true =>
          obtain ⟨s', hwait, hafter⟩ := waitReady_runs_of_refuses h
          exact ⟨s', (denied_of_wait hpublic hwait).bind (.pure _), .inr ⟨hpublic, hafter⟩⟩

/-- A proxy whose creation was refused says so again and again, and sends nothing. -/
theorem plays_runs_of_refused {f : RemoteFault} (h : p.Refused f s.scene) (turns : List Turn) :
    ∃ looked, Venture.Runs jitter (p.plays g turns) s (turns.flatMap (Turn.denials p f))
      (Yard.seen s looked) := by
  induction turns generalizing s with
  | nil => exact ⟨s.scene.looked, .pure _⟩
  | cons turn turns ih =>
      obtain ⟨looked, hturn⟩ := play_runs_of_refused h turn
      have hstill : p.Refused f (Yard.seen s looked).scene := h
      obtain ⟨looked', hturns⟩ := ih hstill
      exact ⟨looked', hturn.bind (hturns.bind (.pure _))⟩

/-- The creation is asked for once, as soon as the background comes to it or a call needs the
object. -/
theorem plays_runs_of_refuses {f : RemoteFault} {c : Creation κ} (h : g.Refuses p f c s.scene)
    (turns : List Turn) :
    ∃ s', Venture.Runs jitter (p.plays g turns) s (turns.flatMap (Turn.denials p f)) s' ∧
      s'.draws = s.draws ∧ s'.deeds = s.deeds ++
        if turns.any (Turn.wakes p) then [.tried ⟨none, c.operation.request.encode⟩] else [] := by
  induction turns with
  | nil => exact ⟨s, .pure _, rfl, by simp⟩
  | cons turn turns ih =>
      obtain ⟨s₁, hturn, ⟨hwakes, rfl⟩ | ⟨hwakes, hrefused, hdraws, hdeeds⟩⟩ :=
        play_runs_of_refuses jitter h turn
      · obtain ⟨s', hturns, hdraws, hdeeds⟩ := ih
        refine ⟨s', hturn.bind (hturns.bind (.pure _)), hdraws, ?_⟩
        simpa [hwakes] using hdeeds
      · obtain ⟨looked, hturns⟩ := plays_runs_of_refused hrefused turns
        refine ⟨_, hturn.bind (hturns.bind (.pure _)), hdraws, ?_⟩
        have hseen : (Yard.seen s₁ looked).deeds = s₁.deeds := rfl
        rw [hseen, hdeeds]
        simp [hwakes]

end

/-- A fault reaches the caller of a method as the same failure, be it that the server refuses the
call or that the object answers so: after one frame, whether calls are tried again or not, and
the proxy goes on to bring whatever the server answers.  No call ends in another way than `Ends`
and `Reports` tell, and no fault is reported that no reply to the frame of the call has brought.
A fault that refuses the creation is the cause that all calls report.  There is one frame then in
all, which the background sends, or else the first call that needs the object. -/
theorem faults_reach_callers (g : Grounds σ κ ℓ) (p : Proxy κ ℓ) (jitter : Nat → Binary64) :
    (∀ f, ∃ payload, Codec.json.encodeOutcome (.error f) = .ok payload ∧
      Conveys (.ok (Response.fault f).encode) (.error f) ∧
      Conveys (.ok (Response.returned payload).encode) (.error f)) ∧
    (∀ call, ∃ payload, Codec.json.encodeArgs call.args = .ok payload ∧
      Request.decode (p.frame call) = .ok (.call p.objectId call.method payload)) ∧
    (p.codec = .json →
      (∀ s calls, p.Ready s.scene → g.Brings p s.scene.net calls →
        ∃ s', Venture.Runs jitter (p.invokes g.surroundings (calls.map Prod.fst)) s
            (calls.map fun c ↦ c.2.mapError .remote) s' ∧
          s'.draws = s.draws ∧
          s'.deeds = s.deeds ++ (calls.map fun c ↦ .tried ⟨none, p.frame c.1⟩) ∧
          p.Ready s'.scene ∧
          ∃ s'', Venture.Runs jitter (p.state g.surroundings) s' .ready s'') ∧
      ∀ call s f s', Venture.Runs jitter (p.invoke g.surroundings call.method call.args) s
          (.error (.remote f)) s' →
        ∃ a tries ds, Venture.Runs jitter (p.waitReady g.surroundings) s (.ok ()) a ∧
          s'.deeds = a.deeds ++ Venture.course ⟨none, p.frame call⟩ ds ∧
          Conveys (Venture.answers ((g.route p.link).exchange (p.frame call)) a.scene.net tries)
            (.error f)) ∧
    (∀ {τ ω : Type} (t : Surroundings (Venture τ ω) κ ℓ) method args a r a',
      Venture.Runs jitter (p.invoke t method args) a r a' → Ends jitter t p method args a r a') ∧
    (∀ f c s turns, g.Refuses p f c s.scene →
      ∃ s', Venture.Runs jitter (p.plays g turns) s (turns.flatMap (Turn.denials p f)) s' ∧
        s'.draws = s.draws ∧
        s'.deeds = s.deeds ++ if turns.any (Turn.wakes p) then
          [.tried ⟨none, c.operation.request.encode⟩] else []) ∧
    ∀ f s turns, p.Refused f s.scene →
      ∃ s', Venture.Runs jitter (p.plays g turns) s (turns.flatMap (Turn.denials p f)) s' ∧
        s'.draws = s.draws ∧ s'.deeds = s.deeds := by
  refine ⟨?_, ?_, ?_, ?_, ?_, ?_⟩
  · intro f
    exact ⟨_, rfl, conveys_fault f, conveys_returned nofun⟩
  · intro call
    exact ⟨_, rfl, p.decode_frame call⟩
  · intro hjson
    constructor
    · intro s calls hready hbrings
      obtain ⟨s', hruns, hready', hdraws, hdeeds⟩ := invokes_runs_of_brings hjson hready hbrings
      obtain ⟨looked, hstate⟩ := state_runs_of_ready g jitter hready'
      exact ⟨s', hruns, hdraws, hdeeds, hready', _, hstate⟩
    · intro call s f s' hruns
      exact conveys_of_runs hjson hruns
  · intro τ ω t method args a r a' hruns
    exact ends_of_runs hruns
  · intro f c s turns hrefuses
    exact plays_runs_of_refuses hrefuses turns
  · intro f s turns hrefused
    obtain ⟨looked, hruns⟩ := plays_runs_of_refused hrefused turns
    exact ⟨_, hruns, rfl, rfl⟩

/-! A server that first refuses with a fault, then answers with the same fault, and then with a
value, and a client that would try again. -/

def overdrawn : RemoteFault := ⟨"ValueError", "no such amount"⟩

def moody : Route Nat where
  exchange _ := fun n ↦
    match n with
    | 0 => (.ok (Response.fault overdrawn).encode, 1)
    | 1 => (.ok (Response.returned (Wire.encodeTree (Outcome.tree (.error overdrawn)))).encode, 2)
    | 2 => (.ok (Response.returned (Wire.encodeTree (Outcome.tree (.ok .null)))).encode, 3)
    | n => (.error .timeout, n)
  inTime _ _ _ := true
  giveUp _ _ n := n

def moodyGrounds : Grounds Nat Unit Empty where
  route _ := moody
  probe := .zero
  policy := some Repetition.stubborn
  others :=
    { connect := fun _ ↦ pure ()
      client := fun _ ↦ .framed (Yard.route Unit moody).transport .zero
      freshId := pure ⟨"1"⟩
      start := fun _ ↦ pure 0
      poll := fun _ ↦ pure none
      join := fun _ ↦ pure (.crashed "no such creation")
      firstLook := fun _ ↦ pure true
      discover := pure none
      launch := fun launcher _ ↦ nomatch launcher
      release := fun launcher ↦ nomatch launcher
      held := fun launcher ↦ nomatch launcher
      shutdown := fun launcher ↦ nomatch launcher }

def account : Proxy Unit Empty where
  methods := .ofNames "Account" ["withdraw"]
  objectId := ⟨"1"⟩
  addr := ⟨"localhost", 4000⟩
  link := ()
  codec := .json
  creation := none
  attachedOnly := true
  launcher := none

def withdraw : Call := ⟨"withdraw", .empty⟩

def audit : Call := ⟨"_audit", .empty⟩

def opening : Creation Unit := ⟨(), "Account", .empty, ⟨"1"⟩⟩

theorem faults_reach_callers_of_account :
    (∃ s', Venture.Runs (fun _ ↦ .ofNat 1)
        (account.invokes moodyGrounds.surroundings [withdraw, withdraw, withdraw])
        ⟨⟨0, [], []⟩, 0, []⟩
        [.error (.remote overdrawn), .error (.remote overdrawn), .ok .null] s' ∧
      s'.deeds = List.replicate 3 (.tried ⟨none, account.frame withdraw⟩)) ∧
    ∃ s', Venture.Runs (fun _ ↦ .ofNat 1)
        ({ account with creation := some 0 }.plays moodyGrounds
          [.call audit, .background, .call withdraw, .call withdraw])
        ⟨⟨0, [(opening, none)], []⟩, 0, []⟩
        [.error (.invalidMethod "Account" "_audit"),
          .error (.creation ⟨"1"⟩ ⟨"localhost", 4000⟩ (.remote overdrawn)),
          .error (.creation ⟨"1"⟩ ⟨"localhost", 4000⟩ (.remote overdrawn))] s' ∧
      s'.deeds = [.tried ⟨none, opening.operation.request.encode⟩] := by
  have hpublic : account.methods.contains "withdraw" = true := by decide
  constructor
  · obtain ⟨-, -, hcalls, -⟩ := faults_reach_callers moodyGrounds account fun _ ↦ .ofNat 1
    have hnull : Outcome.Sendable (.ok .null) := by
      rintro v ⟨⟩
      exact ⟨trivial, Nat.zero_le _⟩
    obtain ⟨s', hruns, -, hdeeds, -⟩ := (hcalls rfl).1 ⟨⟨0, [], []⟩, 0, []⟩
      [(withdraw, .error overdrawn), (withdraw, .error overdrawn), (withdraw, .ok .null)] nofun
      ⟨hpublic, conveys_fault overdrawn, hpublic, conveys_returned nofun, hpublic,
        conveys_returned hnull, trivial⟩
    exact ⟨s', hruns, hdeeds⟩
  · obtain ⟨-, -, -, -, hrefuses, -⟩ := faults_reach_callers moodyGrounds
      { account with creation := some 0 } fun _ ↦ .ofNat 1
    obtain ⟨s', hruns, -, hdeeds⟩ := hrefuses overdrawn opening ⟨⟨0, [(opening, none)], []⟩, 0, []⟩
      [.call audit, .background, .call withdraw, .call withdraw]
      ⟨0, rfl, rfl, _, rfl, Response.decode_encode _⟩
    exact ⟨s', hruns, hdeeds⟩

end RemoteObjects.Proxy
