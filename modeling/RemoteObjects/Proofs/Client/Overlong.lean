import RemoteObjects.Client.Framed
import RemoteObjects.Proofs.Client.Stacking
import RemoteObjects.Proofs.Transport.Framing
import RemoteObjects.Proofs.Wire.Length
import RemoteObjects.Tcp.Line

/-!
# Requests that are too long

A request longer than any frame is refused before its call gets in line, and it will be refused
however often it is tried.  All the same it counts as a failure of the network, so it is tried until
the permitted tries are used up.
-/

namespace RemoteObjects

/-! ## Refusals -/

namespace Tcp.Line

open Transport (maxFrame)

variable {l : Line} {payload : ByteArray}

theorem step?_issue_of_tooLong (h : maxFrame < payload.size) (l : Line) (id : Nat) :
    l.step? (.issue ⟨id, payload⟩) =
      some (l, some (id, .error (.payloadTooLarge payload.size))) := if_pos h

theorem run_of_impossible {events : List Event} (h : ∀ e ∈ events, l.step? e = none) :
    l.run events = (l, []) := by
  induction events with
  | nil => rfl
  | cons e events ih =>
      have hrest := ih fun e' he' ↦ h e' (List.mem_cons_of_mem _ he')
      simp only [run, h e List.mem_cons_self, hrest]

theorem turn_impossible (hactive : l.active = none) (network : Network) :
    ∀ e ∈ l.turn network payload, l.step? e = none := by
  intro e he
  simp only [turn] at he
  -- Whatever happens in a turn happens to the call that holds the line, and there is none.
  cases e with
  | connected | written | replied _ | failed _ => simp only [step?, hactive]
  | issue _ | acquire | abandoned _ =>
      exfalso
      split at he
      · split at he <;> simp at he
      · split at he <;> simp at he
      · simp at he

theorem call_of_tooLong (h : maxFrame < payload.size) (hactive : l.active = none)
    (hwaiting : l.waiting = []) (network : Network) :
    l.call network payload = (.error (.payloadTooLarge payload.size), l) := by
  have hacquire : l.step? .acquire = none := by
    simp only [step?, hactive, hwaiting]
  have hrest : l.run (.acquire :: l.turn network payload) = (l, []) := by
    apply run_of_impossible
    intro e he
    rcases List.mem_cons.mp he with rfl | he
    · exact hacquire
    · exact turn_impossible hactive network e he
  have hrun : l.run (.issue ⟨0, payload⟩ :: .acquire :: l.turn network payload) =
      (l, [(0, .error (.payloadTooLarge payload.size))]) := by
    rw [run]
    simp only [step?_issue_of_tooLong h, hrest]
    rfl
  rw [call, hrun]

end Tcp.Line

namespace Client

open Transport (maxFrame)
open Venture (Runs Tries Affairs)

variable {jitter : Nat → Binary64} {policy : RetryPolicy}

/-! ## Operations over a line -/

def Operation.request : Operation → Request
  | .create objectType args objectId => .create objectType objectId args
  | .call objectId method payload => .call objectId method payload

/-- What a response to the operation means. -/
def Operation.reading : (o : Operation) → Response → Except Error o.Value
  | .create _ _ _ => created
  | .call _ _ _ => returned

theorem perform_framed {m : Type → Type} [Monad m] [Effects m] (t : Transport m) (probe : Duration)
    (o : Operation) : (framed t probe).perform o =
      (do return responseOf (← t.call o.request.encode) >>= o.reading) := by
  cases o <;> rfl

/-- A line on which nobody else calls; what is handed to it is seen. -/
def lineTransport (network : Tcp.Network) : Transport (Venture Tcp.Line ByteArray) where
  call payload := Venture.trial payload (Tcp.Line.call network payload)
  callWithin _ payload := do
    return some (← Venture.trial payload (Tcp.Line.call network payload))

/-- What comes of an operation over a line, once. -/
def exchange (network : Tcp.Network) (o : Operation) : StateM Tcp.Line (Except Error o.Value) :=
  fun l ↦
    let (reply, l) := l.call network o.request.encode
    (responseOf reply >>= o.reading, l)

theorem framed_tries (network : Tcp.Network) (probe : Duration) (o : Operation) :
    Tries jitter ((framed (lineTransport network) probe).perform o) o.request.encode
      (exchange network o) := by
  rw [perform_framed]
  intro s
  exact (Venture.trial_tries _ _ s).bind (.pure _)

/-! ## Trying in vain -/

theorem overlong_runs {s : Affairs Tcp.Line ByteArray} {ds : List Duration} {o : Operation}
    (hlong : maxFrame < o.request.encode.size) (hactive : s.scene.active = none)
    (hwaiting : s.scene.waiting = [])
    (hdelays : Venture.delays jitter (.start policy) s.draws policy.maxAttempts.toNat = .ok ds)
    (network : Tcp.Network) (probe : Duration) :
    Runs jitter (((framed (lineTransport network) probe).retrying policy).perform o) s
      (.error (.retriesExhausted (policy.maxAttempts + 1)
        (.transport (.payloadTooLarge o.request.encode.size))))
      ⟨s.scene, s.draws + policy.maxAttempts.toNat,
        s.deeds ++ Venture.course o.request.encode ds⟩ := by
  have hrefused : (exchange network o).run s.scene =
      (.error (.transport (.payloadTooLarge o.request.encode.size)), s.scene) := by
    simp only [exchange, StateT.run, Tcp.Line.call_of_tooLong hlong hactive hwaiting]
    rfl
  have hanswers := Venture.answers_of_unchanged hrefused
  have hruns := persist_run (framed_tries network probe o) (Nat.le_refl _)
    (fun i _ ↦ not_settles_iff.mpr ⟨_, hanswers i⟩) (.inl rfl) hdelays
  rw [hanswers, Venture.scenes_of_unchanged hrefused, UInt32.ofNat_toNat] at hruns
  rw [perform_retrying]
  exact hruns

/-- A request that is too long is refused because of its length alone, whatever is going on at the
line.  Nevertheless the refusal passes for a failure that another attempt could cure, so that a
client that tries again makes all attempts that its policy permits and waits before each but the
first. -/
theorem overlong_exhausts {s : Affairs Tcp.Line ByteArray} {ds : List Duration} {o : Operation}
    (hlong : maxFrame < o.request.encode.size) (hactive : s.scene.active = none)
    (hwaiting : s.scene.waiting = [])
    (hdelays : Venture.delays jitter (.start policy) s.draws policy.maxAttempts.toNat = .ok ds)
    (network : Tcp.Network) (probe : Duration) :
    (∀ (l : Tcp.Line) id, l.step? (.issue ⟨id, o.request.encode⟩) =
      some (l, some (id, .error (.payloadTooLarge o.request.encode.size)))) ∧
    (Error.transport (.payloadTooLarge o.request.encode.size)).isTransient = true ∧
    ds.length = policy.maxAttempts.toNat ∧
    Runs jitter (((framed (lineTransport network) probe).retrying policy).perform o) s
      (.error (.retriesExhausted (policy.maxAttempts + 1)
        (.transport (.payloadTooLarge o.request.encode.size))))
      ⟨s.scene, s.draws + policy.maxAttempts.toNat,
        s.deeds ++ Venture.course o.request.encode ds⟩ :=
  ⟨Tcp.Line.step?_issue_of_tooLong hlong, rfl, Venture.length_of_delays hdelays,
    overlong_runs hlong hactive hwaiting hdelays network probe⟩

/-! A call with more bytes than a frame can hold, and a policy that permits one repetition. -/

def longCall : Operation := .call ⟨"x"⟩ "get" (Transport.bodyOf (maxFrame + 1))

theorem longCall_tooLong : maxFrame < longCall.request.encode.size := by
  have hsize := Request.size_le_encode_call ⟨"x"⟩ "get" (Transport.bodyOf (maxFrame + 1))
  rw [Transport.size_bodyOf] at hsize
  exact hsize

def once : RetryPolicy := .fixed 1 (.ofMillis 1000)

theorem delays_once : Venture.delays (fun _ ↦ .ofNat 1) (.start once) 0 1 =
    .ok [.ofMillis 1000] := by
  apply Repetition.eq_ok_of_toOption
  decide +kernel

def unplugged : Tcp.Network := ⟨.error .timeout, fun _ _ ↦ .error .timeout⟩

theorem overlong_exhausts_longCall :
    maxFrame < longCall.request.encode.size ∧
      Runs (fun _ ↦ .ofNat 1)
        (((framed (lineTransport unplugged) .zero).retrying once).perform longCall) ⟨.idle, 0, []⟩
        (.error (.retriesExhausted 2 (.transport (.payloadTooLarge longCall.request.encode.size))))
        ⟨.idle, 1, [.tried longCall.request.encode, .drew, .slept (.ofMillis 1000),
          .tried longCall.request.encode]⟩ :=
  ⟨longCall_tooLong, (@overlong_exhausts _ once ⟨.idle, 0, []⟩ _ longCall longCall_tooLong rfl rfl
    delays_once unplugged .zero).2.2.2⟩

/-- Not every request that is too long is given up after one attempt. -/
theorem not_given_up_at_once :
    ¬∀ (policy : RetryPolicy) (o : Operation), maxFrame < o.request.encode.size →
      ∃ r s', Runs (fun _ ↦ .ofNat 1)
          (((framed (lineTransport unplugged) .zero).retrying policy).perform o) ⟨.idle, 0, []⟩
          r s' ∧
        s'.deeds = [.tried o.request.encode] ∧
        ∀ attempts last, r ≠ .error (.retriesExhausted attempts last) := by
  intro h
  obtain ⟨r, s', hruns, -, hkind⟩ := h once longCall longCall_tooLong
  have hexhausted := @overlong_runs _ once ⟨.idle, 0, []⟩ _ longCall longCall_tooLong rfl rfl
    delays_once unplugged .zero
  exact hkind _ _ (hruns.unique hexhausted).1

end Client

end RemoteObjects
