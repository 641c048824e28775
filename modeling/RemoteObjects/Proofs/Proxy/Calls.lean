import RemoteObjects.Proofs.Proxy.Deeds
import RemoteObjects.Proofs.Retry.Venture

/-!
# What a call comes to

A call ends in one of three ways: the method is no public one, the object could not be created, or
the client was asked unless the arguments could not be encoded.  In the last case the result is
told by the client's answer: its failure, or the outcome in its payload if that can be decoded.
-/

namespace RemoteObjects.Proxy

open Venture (Affairs)

variable {κ ℓ σ ω : Type}

/-! ## Answers of the client -/

/-- How what a call comes to is told by the client's answer, which is missing just if the arguments
could not be encoded. -/
structure Reports (codec : Codec) (args : CallArgs)
    (asked : Option (Except Client.Error ByteArray)) (r : Except Error Json.Value) : Prop where
  none_iff : asked = none ↔ ∃ e, codec.encodeArgs args = .error e
  ok_iff : ∀ v, r = .ok v ↔
    ∃ payload, asked = some (.ok payload) ∧ codec.decodeOutcome payload = .ok (.ok v)
  remote_iff : ∀ f, r = .error (.remote f) ↔ asked = some (.error (.remote f)) ∨
    ∃ payload, asked = some (.ok payload) ∧ codec.decodeOutcome payload = .ok (.error f)
  codec_iff : ∀ e, r = .error (.codec e) ↔ codec.encodeArgs args = .error e ∨
    ∃ payload, asked = some (.ok payload) ∧ codec.decodeOutcome payload = .error e
  client_iff : ∀ e, r = .error (.client e) ↔ asked = some (.error e) ∧ ∀ f, e ≠ .remote f

variable {codec : Codec} {args : CallArgs}

theorem reports_unencoded {e : Wire.Error} (h : codec.encodeArgs args = .error e) :
    Reports codec args none (.error (.codec e)) := by
  constructor <;> simp [h]

theorem reports_answerOf {payload : ByteArray} (h : codec.encodeArgs args = .ok payload)
    (reply : Except Client.Error ByteArray) :
    Reports codec args (some reply) (answerOf codec reply) := by
  cases reply with
  | error e =>
      have hanswer : answerOf codec (.error e) = .error (.ofClient e) := rfl
      rw [hanswer]
      cases e with
      | remote f => constructor <;> simp [h, Error.ofClient]
      | _ => constructor <;> simp [h, Error.ofClient, eq_comm]
  | ok bytes =>
      have hanswer : answerOf codec (.ok bytes) = (codec.decodeOutcome bytes).mapError .codec >>=
        fun outcome ↦ outcome.mapError .remote := rfl
      rw [hanswer]
      cases houtcome : codec.decodeOutcome bytes with
      | error e =>
          change Reports codec args _ (.error (.codec e))
          constructor <;> simp [h, houtcome]
      | ok outcome =>
          cases outcome with
          | ok v =>
              change Reports codec args _ (.ok v)
              constructor <;> simp [h, houtcome]
          | error f =>
              change Reports codec args _ (.error (.remote f))
              constructor <;> simp [h, houtcome]

/-! ## Calls -/

section

variable {jitter : Nat → Binary64} {t : Surroundings (Venture σ ω) κ ℓ}
  {p : Proxy κ ℓ} {method : String} {a a' a'' : Affairs σ ω} {r : Except Error Json.Value}

/-- Whether the client is asked for a call and this is its answer; nothing happens if it is not. -/
def Asks (jitter : Nat → Binary64) (t : Surroundings (Venture σ ω) κ ℓ) (p : Proxy κ ℓ)
    (method : String) (args : CallArgs) (a : Affairs σ ω) :
    Option (Except Client.Error ByteArray) → Affairs σ ω → Prop
  | none, a' => a' = a
  | some reply, a' => ∃ payload, p.codec.encodeArgs args = .ok payload ∧
      Venture.Runs jitter ((t.client p.link).call p.objectId method payload) a reply a'

inductive Ends (jitter : Nat → Binary64) (t : Surroundings (Venture σ ω) κ ℓ) (p : Proxy κ ℓ)
    (method : String) (args : CallArgs) :
    Affairs σ ω → Except Error Json.Value → Affairs σ ω → Prop
  | hidden {a : Affairs σ ω} (h : p.methods.contains method = false) :
      Ends jitter t p method args a (.error (.invalidMethod p.objectType method)) a
  | uncreated {a a' : Affairs σ ω} {cause : Client.Error}
      (hpublic : p.methods.contains method = true)
      (hwait : Venture.Runs jitter (p.waitReady t) a
        (.error (.creation p.objectId p.addr cause)) a') :
      Ends jitter t p method args a (.error (.creation p.objectId p.addr cause)) a'
  | reported {a a' a'' : Affairs σ ω} {asked : Option (Except Client.Error ByteArray)}
      {r : Except Error Json.Value} (hpublic : p.methods.contains method = true)
      (hwait : Venture.Runs jitter (p.waitReady t) a (.ok ()) a')
      (hasked : Asks jitter t p method args a' asked a'') (h : Reports p.codec args asked r) :
      Ends jitter t p method args a r a''

theorem look_of_runs {creation : Nat} {settled : Settled} {result : Except Error Unit}
    (h : Venture.Runs jitter (p.look t creation settled) a result a') :
    result = p.verdict creation settled := by
  unfold verdict
  unfold look at h
  obtain ⟨first, a₁, -, h⟩ := h.of_bind
  cases first with
  | false =>
      obtain ⟨rfl, -⟩ := h.unique (.pure _)
      rfl
  | true =>
      simp only [if_true] at h
      cases hcause : settled.cause? creation with
      | none =>
          rw [hcause] at h
          obtain ⟨_, a₂, -, h⟩ := h.of_bind
          obtain ⟨rfl, -⟩ := h.unique (.pure _)
          rfl
      | some cause =>
          rw [hcause] at h
          obtain ⟨_, a₂, -, h⟩ := h.of_bind
          obtain ⟨rfl, -⟩ := h.unique (.pure _)
          rfl

/-- Nobody waits in vain but for a creation that failed. -/
theorem cause_of_waitReady {e : Error} (h : Venture.Runs jitter (p.waitReady t) a (.error e) a') :
    ∃ cause, e = .creation p.objectId p.addr cause := by
  unfold waitReady at h
  split at h
  · cases (h.unique (.pure _)).1
  · next creation _ =>
      obtain ⟨settled, a₁, -, h⟩ := h.of_bind
      have hlook := look_of_runs h
      unfold verdict at hlook
      cases hcause : settled.cause? creation with
      | none =>
          rw [hcause] at hlook
          cases hlook
      | some cause =>
          rw [hcause] at hlook
          exact ⟨cause, Except.error.inj hlook⟩

theorem ends_of_runs (h : Venture.Runs jitter (p.invoke t method args) a r a'') :
    Ends jitter t p method args a r a'' := by
  unfold invoke at h
  cases hpublic : p.methods.contains method with
  | false =>
      simp only [hpublic, Bool.not_false, if_true] at h
      obtain ⟨rfl, rfl⟩ := h.unique (.pure _)
      exact .hidden hpublic
  | true =>
      simp only [hpublic, Bool.not_true, Bool.false_eq_true, if_false] at h
      obtain ⟨result, a', hwait, h⟩ := h.of_bind
      cases result with
      | error e =>
          obtain ⟨rfl, rfl⟩ := h.unique (.pure _)
          obtain ⟨cause, rfl⟩ := cause_of_waitReady hwait
          exact .uncreated hpublic hwait
      | ok _ =>
          cases hargs : p.codec.encodeArgs args with
          | error e =>
              simp only [hargs] at h
              obtain ⟨rfl, rfl⟩ := h.unique (.pure _)
              have hasked : Asks jitter t p method args a'' none a'' := rfl
              exact .reported hpublic hwait hasked (reports_unencoded hargs)
          | ok payload =>
              simp only [hargs] at h
              obtain ⟨reply, a₁, hcall, h⟩ := h.of_bind
              obtain ⟨rfl, rfl⟩ := h.unique (.pure _)
              have hasked : Asks jitter t p method args a' (some reply) a'' :=
                ⟨payload, hargs, hcall⟩
              exact .reported hpublic hwait hasked (reports_answerOf hargs reply)

end

end RemoteObjects.Proxy
