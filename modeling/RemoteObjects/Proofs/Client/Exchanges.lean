import RemoteObjects.Proofs.Client.Overlong
import RemoteObjects.Proofs.Wire.RoundTrip

/-!
# What a client makes of a reply

An operation is one exchange.  Whatever comes back is sorted by what it tells: the answer to the
operation, a fault, a response that fits no such operation, bytes that tell nothing at all, or that
nothing came back.  Only the answer counts as success, and only a pong in time as a sign of life.
-/

namespace RemoteObjects.Client

open Venture (Runs Affairs)

/-! ## A way to a server -/

/-- What comes of frames that are sent to a server. -/
structure Route (σ : Type) where
  exchange : ByteArray → StateM σ (Except Transport.Error ByteArray)
  /-- Whether an exchange that begins now is over within a limit. -/
  inTime : Duration → ByteArray → σ → Bool
  /-- What is left of an exchange that is given up at a limit. -/
  giveUp : Duration → ByteArray → σ → σ

/-- A frame as it is handed to a transport, and the time it is given if there is a limit. -/
structure Sent where
  limit : Option Duration
  frame : ByteArray

namespace Route

variable {σ : Type}

def exchangeWithin (route : Route σ) (limit : Duration) (frame : ByteArray) :
    StateM σ (Option (Except Transport.Error ByteArray)) := fun scene ↦
  if route.inTime limit frame scene then
    (some (route.exchange frame scene).1, (route.exchange frame scene).2)
  else (none, route.giveUp limit frame scene)

/-- The transport that takes this way; all that is handed to it is seen. -/
def transport (route : Route σ) : Transport (Venture σ Sent) where
  call frame := Venture.trial ⟨none, frame⟩ (route.exchange frame)
  callWithin limit frame := Venture.trial ⟨some limit, frame⟩ (route.exchangeWithin limit frame)

end Route

/-! ## Replies -/

/-- Whether a reply came back and tells a response. -/
def Tells (reply : Except Transport.Error ByteArray) (response : Response) : Prop :=
  ∃ bytes, reply = .ok bytes ∧ Response.decode bytes = .ok response

theorem not_tells_error {e : Transport.Error} {response : Response} :
    ¬Tells (.error e) response := by
  rintro ⟨_, h, -⟩
  cases h

theorem not_tells_of_decode_error {bytes : ByteArray} {e : Wire.Error}
    (h : Response.decode bytes = .error e) {response : Response} : ¬Tells (.ok bytes) response := by
  rintro ⟨_, ⟨⟩, hdecode⟩
  rw [h] at hdecode
  cases hdecode

theorem tells_iff {bytes : ByteArray} {response : Response}
    (h : Response.decode bytes = .ok response) {other : Response} :
    Tells (.ok bytes) other ↔ other = response := by
  constructor
  · rintro ⟨_, ⟨⟩, hdecode⟩
    rw [h] at hdecode
    exact (Except.ok.inj hdecode).symm
  · rintro rfl
    exact ⟨bytes, rfl, h⟩

theorem responseOf_of_tells {reply : Except Transport.Error ByteArray} {response : Response}
    (h : Tells reply response) : responseOf reply = .ok response := by
  obtain ⟨bytes, rfl, hdecode⟩ := h
  change (Response.decode bytes).mapError Error.wire = _
  rw [hdecode]
  rfl

theorem exists_reason {bytes : ByteArray} {e : Wire.Error} (h : Response.decode bytes = .error e) :
    ∃ reason, e = .decode reason := by
  have hnone : ∀ response, Wire.decodeBytes Response.tagged.decode bytes ≠ .ok response := by
    intro response hresponse
    exact not_tells_of_decode_error h ⟨bytes, rfl, hresponse⟩
  obtain ⟨reason, hreason⟩ := Wire.decodeBytes_error_iff.mpr hnone
  exact ⟨reason, Except.error.inj (h.symm.trans hreason)⟩

/-! ## Responses to an operation -/

namespace Operation

def answer : (o : Operation) → o.Value → Response
  | .create _ _ _, _ => .created
  | .call _ _ _, payload => .returned payload

def expected : Operation → String
  | .create _ _ _ => "created"
  | .call _ _ _ => "returned"

variable {o : Operation}

theorem answer_inj {v w : o.Value} : o.answer v = o.answer w ↔ v = w := by
  cases o with
  | create => exact iff_of_true rfl rfl
  | call => exact Response.returned.injEq v w ▸ Iff.rfl

theorem answer_ne_fault {v : o.Value} {f : RemoteFault} : o.answer v ≠ .fault f := by
  cases o with
  | create => exact nofun
  | call => exact nofun

/-- Whether a response is neither an answer to an operation nor a fault. -/
structure Misfit (o : Operation) (response : Response) : Prop where
  not_answer : ∀ v, response ≠ o.answer v
  not_fault : ∀ f, response ≠ .fault f

def received : Response → String
  | .created => "created"
  | .returned _ => "returned"
  | .fault _ => "fault"
  | .pong => "pong"

def complaint (o : Operation) (response : Response) : String :=
  "expected `" ++ o.expected ++ "`, received `" ++ received response ++ "`"

inductive Reads (o : Operation) : Response → Except Error o.Value → Prop
  | answer (v : o.Value) : Reads o (o.answer v) (.ok v)
  | fault (f : RemoteFault) : Reads o (.fault f) (.error (.remote f))
  | misfit {response : Response} (h : o.Misfit response) :
      Reads o response (.error (.protocol (o.complaint response)))

theorem reads_reading (o : Operation) (response : Response) :
    o.Reads response (o.reading response) := by
  cases o with
  | create objectType args objectId =>
      cases response with
      | created => exact .answer (o := .create objectType args objectId) ()
      | fault f => exact .fault f
      | returned => exact .misfit ⟨nofun, nofun⟩
      | pong => exact .misfit ⟨nofun, nofun⟩
  | call objectId method bytes =>
      cases response with
      | returned payload => exact .answer (o := .call objectId method bytes) payload
      | fault f => exact .fault f
      | created => exact .misfit ⟨nofun, nofun⟩
      | pong => exact .misfit ⟨nofun, nofun⟩

end Operation

/-! ## Exchanges -/

/-- How what an operation comes to is told by the reply. -/
structure Classifies (o : Operation) (reply : Except Transport.Error ByteArray)
    (r : Except Error o.Value) : Prop where
  ok_iff : ∀ v, r = .ok v ↔ Tells reply (o.answer v)
  remote_iff : ∀ f, r = .error (.remote f) ↔ Tells reply (.fault f)
  protocol_iff : ∀ reason, r = .error (.protocol reason) ↔
    ∃ response, Tells reply response ∧ o.Misfit response ∧ reason = o.complaint response
  wire_iff : ∀ e, r = .error (.wire e) ↔
    ∃ bytes, reply = .ok bytes ∧ Response.decode bytes = .error e
  /-- Bytes that tell no response are told to be undecodable, and nothing fails to be encoded. -/
  decode_iff : (∃ reason, r = .error (.wire (.decode reason))) ↔
    ∃ bytes, reply = .ok bytes ∧ ∀ response, Response.decode bytes ≠ .ok response
  ne_encode : ∀ reason, r ≠ .error (.wire (.encode reason))
  transport_iff : ∀ e, r = .error (.transport e) ↔ reply = .error e
  ne_retriesExhausted : ∀ attempts last, r ≠ .error (.retriesExhausted attempts last)
  ne_internal : ∀ reason, r ≠ .error (.internal reason)

theorem classifies_of_error (o : Operation) (e : Transport.Error) :
    Classifies o (.error e) (.error (.transport e)) := by
  constructor <;> simp [not_tells_error, eq_comm]

theorem classifies_of_decode_error (o : Operation) {bytes : ByteArray} {e : Wire.Error}
    (h : Response.decode bytes = .error e) : Classifies o (.ok bytes) (.error (.wire e)) := by
  obtain ⟨reason, rfl⟩ := exists_reason h
  constructor <;> simp [not_tells_of_decode_error h, h, eq_comm]

theorem classifies_of_decode {o : Operation} {bytes : ByteArray} {response : Response}
    (h : Response.decode bytes = .ok response) {r : Except Error o.Value}
    (hreads : o.Reads response r) : Classifies o (.ok bytes) r := by
  cases hreads with
  | answer v =>
      have hmisfit : ¬o.Misfit (o.answer v) := fun hmisfit ↦ hmisfit.not_answer v rfl
      constructor <;> simp [tells_iff h, h, Operation.answer_inj, Operation.answer_ne_fault.symm,
        hmisfit, eq_comm]
  | fault f =>
      have hmisfit : ¬o.Misfit (.fault f) := fun hmisfit ↦ hmisfit.not_fault f rfl
      have hanswer (v : o.Value) : .fault f ≠ o.answer v := Operation.answer_ne_fault.symm
      constructor <;> simp [tells_iff h, h, hanswer, hmisfit, eq_comm]
  | misfit hmisfit =>
      have hanswer (v : o.Value) : o.answer v ≠ response := (hmisfit.not_answer v).symm
      have hfault (f : RemoteFault) : .fault f ≠ response := (hmisfit.not_fault f).symm
      constructor <;> simp [tells_iff h, h, hanswer, hfault, hmisfit, eq_comm]

/-- What a reply means for an operation is told by what the reply tells. -/
theorem classifies_reply (o : Operation) (reply : Except Transport.Error ByteArray) :
    Classifies o reply (responseOf reply >>= o.reading) := by
  cases reply with
  | error e => exact classifies_of_error o e
  | ok bytes =>
      have hresponse : responseOf (.ok bytes) = (Response.decode bytes).mapError .wire := rfl
      rw [hresponse]
      cases h : Response.decode bytes with
      | error e => exact classifies_of_decode_error o h
      | ok response => exact classifies_of_decode h (o.reads_reading response)

def Route.sorted {σ : Type} (route : Route σ) (o : Operation) :
    StateM σ (Except Error o.Value) := fun scene ↦
  (responseOf (route.exchange o.request.encode scene).1 >>= o.reading,
    (route.exchange o.request.encode scene).2)

section

variable {σ : Type} {jitter : Nat → Binary64} (route : Route σ) (probe : Duration)

theorem framed_route_tries (o : Operation) :
    Venture.Tries jitter ((framed route.transport probe).perform o) ⟨none, o.request.encode⟩
      (route.sorted o) := by
  rw [perform_framed]
  intro s
  exact (Venture.trial_tries _ _ s).bind (.pure _)

/-- Only a pong that comes back in time is taken for a sign of life. -/
theorem alive_runs (reply : Option (Except Transport.Error ByteArray)) (s : Affairs σ Sent) :
    ∃ sign, Runs jitter (alive (reply.map responseOf)) s sign s ∧
      (sign = true ↔ ∃ back, reply = some back ∧ Tells back .pong) := by
  cases reply with
  | none => exact ⟨false, .pure _, by simp⟩
  | some back =>
      have hback : (∃ other, some back = some other ∧ Tells other .pong) ↔ Tells back .pong := by
        simp
      rw [hback]
      cases back with
      | error e => exact ⟨false, (Venture.log_runs _).bind (.pure _), by simp [not_tells_error]⟩
      | ok bytes =>
          have hresponse : responseOf (.ok bytes) = (Response.decode bytes).mapError .wire := rfl
          rw [Option.map_some, hresponse]
          cases h : Response.decode bytes with
          | error e =>
              exact ⟨false, (Venture.log_runs _).bind (.pure _),
                by simp [not_tells_of_decode_error h]⟩
          | ok response =>
              rw [tells_iff h]
              cases response with
              | pong => exact ⟨true, .pure _, by simp⟩
              | _ => exact ⟨false, (Venture.log_runs _).bind (.pure _), by simp⟩

theorem reachable_route_runs (s : Affairs σ Sent) :
    ∃ sign, Runs jitter (framed route.transport probe).reachable s sign
        ⟨(route.exchangeWithin probe Request.ping.encode s.scene).2, s.draws,
          s.deeds ++ [.tried ⟨some probe, Request.ping.encode⟩]⟩ ∧
      (sign = true ↔ route.inTime probe Request.ping.encode s.scene = true ∧
        Tells (route.exchange Request.ping.encode s.scene).1 .pong) := by
  let f := route.exchangeWithin probe Request.ping.encode
  have htried := @Venture.trial_tries _ _ _ jitter ⟨some probe, Request.ping.encode⟩ f s
  obtain ⟨sign, halive, hsign⟩ := @alive_runs _ jitter (f.run s.scene).1
    ⟨(f.run s.scene).2, s.draws, s.deeds ++ [.tried ⟨some probe, Request.ping.encode⟩]⟩
  refine ⟨sign, htried.bind halive, hsign.trans ?_⟩
  simp only [f, Route.exchangeWithin, StateT.run]
  by_cases hin : route.inTime probe Request.ping.encode s.scene = true
  · simp [hin]
  · simp [hin]

end

/-! ## Trying again -/

section

open Venture (answers scenes course)

variable {σ : Type} {jitter : Nat → Binary64} {route : Route σ} {probe : Duration}
  {policy : Option RetryPolicy} {s s' : Affairs σ Sent} {o : Operation}

theorem answers_sorted (scene : σ) (tries : Nat) : answers (route.sorted o) scene tries =
    responseOf (answers (route.exchange o.request.encode) scene tries) >>= o.reading := rfl

theorem settles_reading (o : Operation) (bytes : ByteArray) :
    Repetition.Settles Error.isTransient (responseOf (.ok bytes) >>= o.reading) := by
  by_contra hagain
  obtain ⟨e, he⟩ := not_settles_iff.mp hagain
  cases ((classifies_reply o (.ok bytes)).transport_iff e).mp he

/-- Whatever comes back settles an operation, and it is not tried again. -/
theorem perform_maybeRetrying_runs {bytes : ByteArray} {scene : σ}
    (h : route.exchange o.request.encode s.scene = (.ok bytes, scene)) :
    Runs jitter (((framed route.transport probe).maybeRetrying policy).perform o) s
      (responseOf (.ok bytes) >>= o.reading)
      ⟨scene, s.draws, s.deeds ++ [.tried ⟨none, o.request.encode⟩]⟩ := by
  cases policy with
  | none =>
      have hruns := @framed_route_tries _ jitter route probe o s
      simp only [Route.sorted, StateT.run, h] at hruns
      exact hruns
  | some policy =>
      have hanswer : answers (route.sorted o) s.scene 0 = responseOf (.ok bytes) >>= o.reading := by
        change responseOf (route.exchange _ s.scene).1 >>= o.reading = _
        rw [h]
      have hsettles :
          Repetition.Settles Error.isTransient (answers (route.sorted o) s.scene 0) := by
        rw [hanswer]
        exact settles_reading o bytes
      have hruns : Runs jitter (persist policy ((framed route.transport probe).perform o)) s _ _ :=
        persist_run (framed_route_tries route probe o) (Nat.zero_le _) nofun (.inr hsettles) rfl
      rw [ofRetry_verdict_of_settles hsettles, hanswer] at hruns
      have hscene : scenes (route.sorted o) s.scene (0 + 1) = scene := congrArg Prod.snd h
      rw [hscene] at hruns
      rw [maybeRetrying, Option.elim_some, perform_retrying]
      exact hruns

/-- However often an operation was tried, what it came to is told by the last reply, and no other
frame than its own was sent. -/
theorem replied_of_runs {r : Except Error o.Value}
    (h : Runs jitter (((framed route.transport probe).maybeRetrying policy).perform o) s r s') :
    ∃ tries ds, s'.scene = scenes (route.exchange o.request.encode) s.scene (tries + 1) ∧
      s'.deeds = s.deeds ++ course ⟨none, o.request.encode⟩ ds ∧
      (Classifies o (answers (route.exchange o.request.encode) s.scene tries) r ∨
        ∃ attempts last, r = .error (.retriesExhausted attempts last)) := by
  cases policy with
  | none =>
      obtain ⟨rfl, rfl⟩ := h.unique (framed_route_tries route probe o s)
      exact ⟨0, [], rfl, rfl, .inl (classifies_reply o _)⟩
  | some policy =>
      rw [maybeRetrying, Option.elim_some, perform_retrying] at h
      obtain ⟨result, s₁, hattempts, h⟩ := h.of_bind
      obtain ⟨rfl, rfl⟩ := h.unique (.pure _)
      obtain ⟨tries, ds, attempts, -, -, hresult, hscene, hdeeds⟩ :=
        Venture.tries_of_attempt (framed_route_tries route probe o) hattempts
      refine ⟨tries, ds, hscene, hdeeds, ?_⟩
      rw [hresult]
      by_cases hsettles :
          Repetition.Settles Error.isTransient (answers (route.sorted o) s.scene tries)
      · rw [ofRetry_verdict_of_settles hsettles, answers_sorted]
        exact .inl (classifies_reply o _)
      · obtain ⟨e, he⟩ := not_settles_iff.mp hsettles
        rw [he]
        exact .inr ⟨attempts, _, rfl⟩

end

/-- A client hands exactly one frame to the transport for each operation, which tells the server
what was asked for, and sorts what comes back; no other failure is ever made out of it.  A probe is
one frame as well, and comes to a yes or no whatever happens. -/
theorem framed_classifies {σ : Type} (route : Route σ) (probe : Duration)
    (jitter : Nat → Binary64) (s : Affairs σ Sent) :
    (∀ o : Operation, ∃ frame r, Request.decode frame = .ok o.request ∧
      Runs jitter ((framed route.transport probe).perform o) s r
        ⟨(route.exchange frame s.scene).2, s.draws, s.deeds ++ [.tried ⟨none, frame⟩]⟩ ∧
      Classifies o (route.exchange frame s.scene).1 r) ∧
    ∃ frame sign, Request.decode frame = .ok .ping ∧
      Runs jitter (framed route.transport probe).reachable s sign
        ⟨(route.exchangeWithin probe frame s.scene).2, s.draws,
          s.deeds ++ [.tried ⟨some probe, frame⟩]⟩ ∧
      (sign = true ↔ route.inTime probe frame s.scene = true ∧
        Tells (route.exchange frame s.scene).1 .pong) := by
  constructor
  · intro o
    exact ⟨o.request.encode, _, o.request.decode_encode, framed_route_tries route probe o s,
      classifies_reply o _⟩
  · obtain ⟨sign, hruns, hsign⟩ := reachable_route_runs route probe s
    exact ⟨Request.ping.encode, sign, Request.ping.decode_encode, hruns, hsign⟩

end RemoteObjects.Client
