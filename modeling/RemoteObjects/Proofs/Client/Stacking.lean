import RemoteObjects.Client.Retrying
import RemoteObjects.Proofs.Retry.Venture

/-!
# What a client that tries again lets through

Creations and calls are tried again with the same arguments as long as the network fails and the
policy permits.  Failures of the network stay inside, everything else is passed on, and so a second
policy around the first finds nothing to do.
-/

namespace RemoteObjects.Client

open Repetition (Settles verdict)
open Venture (Runs Tries Affairs scenes answers)

variable {m : Type → Type} [Monad m] {σ α β ω : Type}

/-! ## Operations -/

inductive Operation where
  | create (objectType : String) (args : ByteArray) (objectId : ObjectId)
  | call (objectId : ObjectId) (method : String) (payload : ByteArray)

abbrev Operation.Value : Operation → Type
  | .create _ _ _ => Unit
  | .call _ _ _ => ByteArray

def perform (c : Client m) : (o : Operation) → m (Except Error o.Value)
  | .create objectType args objectId => c.create objectType args objectId
  | .call objectId method payload => c.call objectId method payload

abbrev Reply : Type := (o : Operation) × Except Error o.Value

def play (c : Client m) : List Operation → m (List Reply)
  | [] => return []
  | o :: rest => do
    let r ← c.perform o
    return ⟨o, r⟩ :: (← c.play rest)

theorem perform_retrying [Effects m] (c : Client m) (policy : RetryPolicy) (o : Operation) :
    (c.retrying policy).perform o = persist policy (c.perform o) := by
  cases o <;> rfl

/-- A client whose operations are seen. -/
def observed (c : Client (StateM σ)) : Client (Venture σ Operation) where
  create objectType args objectId :=
    Venture.trial (.create objectType args objectId) (c.create objectType args objectId)
  call objectId method payload :=
    Venture.trial (.call objectId method payload) (c.call objectId method payload)
  reachable := Venture.onScene c.reachable

theorem perform_observed (c : Client (StateM σ)) (o : Operation) :
    c.observed.perform o = Venture.trial o (c.perform o) := by
  cases o <;> rfl

/-! ## One operation -/

theorem not_settles_iff {r : Except Error α} :
    ¬Settles Error.isTransient r ↔ ∃ e, r = .error (.transport e) := by
  cases r with
  | ok a => simp [Settles]
  | error e => cases e <;> simp [Settles, Error.isTransient]

theorem ofRetry_verdict_of_settles {r : Except Error α} (h : Settles Error.isTransient r)
    (attempts : UInt32) :
    (verdict Error.isTransient attempts r).mapError .ofRetry = r := by
  cases r with
  | ok a => rfl
  | error e =>
      have he : e.isTransient = false := h
      simp only [verdict, he, Bool.false_eq_true, if_false]
      rfl

theorem ofRetry_verdict_ne_transport (r : Except Error α) (attempts : UInt32)
    (e : Transport.Error) :
    (verdict Error.isTransient attempts r).mapError Error.ofRetry ≠
      .error (Error.transport e) := by
  intro heq
  by_cases hsettles : Settles Error.isTransient r
  · rw [ofRetry_verdict_of_settles hsettles] at heq
    exact not_settles_iff.mpr ⟨e, heq⟩ hsettles
  · obtain ⟨e', rfl⟩ := not_settles_iff.mp hsettles
    cases heq

variable {policy : RetryPolicy} {jitter : Nat → Binary64} {s s' : Affairs σ ω}

theorem persist_run {op : Venture σ ω (Except Error α)} {x : ω} {f : StateM σ (Except Error α)}
    {k : Nat} {ds : List Duration} (hop : Tries jitter op x f)
    (hk : k ≤ policy.maxAttempts.toNat)
    (hagain : ∀ i < k, ¬Settles Error.isTransient (answers f s.scene i))
    (hlast : k = policy.maxAttempts.toNat ∨ Settles Error.isTransient (answers f s.scene k))
    (hdelays : Venture.delays jitter (.start policy) s.draws k = .ok ds) :
    Runs jitter (persist policy op) s
      ((verdict Error.isTransient (.ofNat k + 1) (answers f s.scene k)).mapError .ofRetry)
      ⟨scenes f s.scene (k + 1), s.draws + k, s.deeds ++ Venture.course x ds⟩ := by
  have hruns : Runs jitter (RetryPolicy.attempt Error.isTransient op _ 0 _) s _ _ :=
    (Venture.running jitter).attempts_run (Venture.repeats_running hop hagain hdelays) hk hlast
  rw [UInt32.zero_add] at hruns
  exact hruns.bind (.pure _)

/-- How an operation is performed when it is repeated so many times, with these delays. -/
structure Persistence (policy : RetryPolicy) (jitter : Nat → Binary64) (c : Client (StateM σ))
    (o : Operation) (s : Affairs σ Operation) (r : Except Error o.Value)
    (s' : Affairs σ Operation) (repeats : Nat) (ds : List Duration) : Prop where
  permitted : repeats ≤ policy.maxAttempts.toNat
  delays : Venture.delays jitter (.start policy) s.draws repeats = .ok ds
  length_delays : ds.length = repeats
  /-- The same is tried once more than it is repeated, and between two tries lies one delay. -/
  course : s' = ⟨scenes (c.perform o) s.scene (repeats + 1), s.draws + repeats,
    s.deeds ++ Venture.course o ds⟩
  repeated : ∀ i < repeats, ∃ e, answers (c.perform o) s.scene i = .error (.transport e)
  passedOn : (∀ e, answers (c.perform o) s.scene repeats ≠ .error (.transport e)) →
    r = answers (c.perform o) s.scene repeats
  exhausted : ∀ e, answers (c.perform o) s.scene repeats = .error (.transport e) →
    repeats = policy.maxAttempts.toNat ∧ ∃ attempts : UInt32,
      attempts.toNat = repeats + 1 ∧ r = .error (.retriesExhausted attempts (.transport e))
  kept : ∀ e, r ≠ .error (.transport e)

/-- Whether no delay of a policy is too long, wherever in the sequence of factors it begins. -/
def Calm (policy : RetryPolicy) (jitter : Nat → Binary64) : Prop :=
  ∀ draws count, count ≤ policy.maxAttempts.toNat →
    ∃ ds, Venture.delays jitter (.start policy) draws count = .ok ds

theorem exists_persistence (hbudget : policy.maxAttempts.toNat < UInt32.size - 1)
    (hcalm : Calm policy jitter) (c : Client (StateM σ)) (o : Operation)
    (s : Affairs σ Operation) :
    ∃ r s', Runs jitter ((c.observed.retrying policy).perform o) s r s' ∧
      ∃ repeats ds, Persistence policy jitter c o s r s' repeats ds := by
  obtain ⟨k, hk, hagain, hlast⟩ := Venture.exists_last
    (fun i ↦ Settles Error.isTransient (answers (c.perform o) s.scene i)) policy.maxAttempts.toNat
  obtain ⟨ds, hdelays⟩ := hcalm s.draws k hk
  have hop : Tries jitter (c.observed.perform o) o (c.perform o) := by
    rw [perform_observed]
    exact Venture.trial_tries o _
  have hruns := persist_run hop hk hagain hlast hdelays
  rw [← perform_retrying] at hruns
  refine ⟨_, _, hruns, k, ds, hk, hdelays, Venture.length_of_delays hdelays, rfl,
    fun i hi ↦ not_settles_iff.mp (hagain i hi), ?_, ?_, ?_⟩
  · intro hother
    apply ofRetry_verdict_of_settles
    by_contra hsettles
    obtain ⟨e, he⟩ := not_settles_iff.mp hsettles
    exact hother e he
  · intro e hanswer
    have hall : k = policy.maxAttempts.toNat :=
      hlast.resolve_right (not_settles_iff.mpr ⟨e, hanswer⟩)
    refine ⟨hall, .ofNat k + 1, ?_, ?_⟩
    · rw [hall, UInt32.ofNat_toNat, UInt32.toNat_add]
      exact Nat.mod_eq_of_lt (Nat.add_lt_of_lt_sub hbudget)
    · rw [hanswer]
      rfl
  · exact ofRetry_verdict_ne_transport _ _

/-! ## One operation after another -/

inductive Persisting (policy : RetryPolicy) (jitter : Nat → Binary64) (c : Client (StateM σ)) :
    List Operation → Affairs σ Operation → List Reply → Affairs σ Operation → Prop
  | nothing {s : Affairs σ Operation} : Persisting policy jitter c [] s [] s
  | operation {o : Operation} {s s' s'' : Affairs σ Operation} {r : Except Error o.Value}
      {repeats : Nat} {ds : List Duration} {ops : List Operation} {rs : List Reply} :
      Persistence policy jitter c o s r s' repeats ds → Persisting policy jitter c ops s' rs s'' →
      Persisting policy jitter c (o :: ops) s (⟨o, r⟩ :: rs) s''

theorem exists_persisting (hbudget : policy.maxAttempts.toNat < UInt32.size - 1)
    (hcalm : Calm policy jitter) (c : Client (StateM σ)) (ops : List Operation)
    (s : Affairs σ Operation) :
    ∃ rs s', Runs jitter ((c.observed.retrying policy).play ops) s rs s' ∧
      Persisting policy jitter c ops s rs s' := by
  induction ops generalizing s with
  | nil => exact ⟨[], s, .pure _, .nothing⟩
  | cons o ops ih =>
      obtain ⟨r, s', hfirst, repeats, ds, hpersistence⟩ := exists_persistence hbudget hcalm c o s
      obtain ⟨rs, s'', hrest, hpersisting⟩ := ih s'
      exact ⟨_, s'', hfirst.bind (hrest.bind (.pure _)), .operation hpersistence hpersisting⟩

/-! ## One policy around another -/

section Wrapping

variable [LawfulMonad m] [Effects m]
  (hcrash : ∀ {β γ : Type} (reason : String) (k : β → m γ),
    (Effects.crash reason : m β) >>= k = Effects.crash reason)

include hcrash

/-- Whatever goes on with what an operation comes to need not reckon with an abortion that was worth
another attempt. -/
theorem attempt_bind_congr {ε : Type} [ToString ε] {again : ε → Bool} {op : m (Except ε α)}
    {k k' : Except (RetryError ε) α → m β}
    (h : ∀ r, (∀ e, r = .error (.aborted e) → again e = false) → k r = k' r) (left : Nat)
    (done : UInt32) (b : Backoff) :
    RetryPolicy.attempt again op left done b >>= k =
      RetryPolicy.attempt again op left done b >>= k' := by
  have hok (a : α) : k (.ok a) = k' (.ok a) := h _ fun _ heq ↦ by cases heq
  have haborted {e : ε} (he : again e = false) :
      k (.error (.aborted e)) = k' (.error (.aborted e)) := by
    apply h
    rintro _ ⟨⟩
    exact he
  have hexhausted (attempts : UInt32) (e : ε) :
      k (.error (.exhausted attempts e)) = k' (.error (.exhausted attempts e)) :=
    h _ fun _ heq ↦ by cases heq
  -- Both sides repeat alike, and they part only where the repetition ends, in one of three ways.
  induction left generalizing done b with
  | zero =>
      rw [RetryPolicy.attempt, bind_assoc, bind_assoc]
      apply bind_congr
      intro r
      cases r with
      | ok a => simpa only [pure_bind] using hok a
      | error e =>
          cases he : again e with
          | false => simpa only [he, Bool.not_false, if_true, pure_bind] using haborted he
          | true =>
              simp only [he, Bool.not_true, Bool.false_eq_true, if_false, bind_assoc, pure_bind]
              exact bind_congr fun _ ↦ hexhausted _ _
  | succ left ih =>
      rw [RetryPolicy.attempt, bind_assoc, bind_assoc]
      apply bind_congr
      intro r
      cases r with
      | ok a => simpa only [pure_bind] using hok a
      | error e =>
          cases he : again e with
          | false => simpa only [he, Bool.not_false, if_true, pure_bind] using haborted he
          | true =>
              simp only [he, Bool.not_true, Bool.false_eq_true, if_false, bind_assoc]
              apply bind_congr
              intro factor
              cases hnext : b.next factor with
              | error failure => rw [hcrash, hcrash]
              | ok next =>
                  simp only [bind_assoc]
                  exact bind_congr fun _ ↦ bind_congr fun _ ↦ ih _ _

theorem persist_bind_congr {op : m (Except Error α)} {k k' : Except Error α → m β}
    (h : ∀ r, (∀ e, r ≠ .error (.transport e)) → k r = k' r) (policy : RetryPolicy) :
    persist policy op >>= k = persist policy op >>= k' := by
  simp only [persist, RetryPolicy.retryIf, bind_assoc, pure_bind]
  apply attempt_bind_congr hcrash
  intro r hr
  apply h
  intro e heq
  cases r with
  | ok a => cases heq
  | error failure =>
      cases failure with
      | exhausted attempts last => cases heq
      | aborted e' =>
          cases heq
          exact absurd (hr _ rfl) (by simp [Error.isTransient])

theorem persist_persist (op : m (Except Error α)) (policy outer : RetryPolicy) :
    persist outer (persist policy op) = persist policy op := by
  rw [persist, RetryPolicy.retryIf, RetryPolicy.attempt.eq_def, bind_assoc]
  -- The first answer from inside settles the matter outside, so no further try is looked at.
  refine Eq.trans ?_ (bind_pure (persist policy op))
  apply persist_bind_congr hcrash
  intro r hr
  cases r with
  | ok a =>
      simp only [pure_bind]
      rfl
  | error e =>
      have he : e.isTransient = false := by
        cases e with
        | transport e => exact absurd rfl (hr e)
        | wire | remote | protocol | retriesExhausted | internal => rfl
      simp only [he, Bool.not_false, if_true, pure_bind]
      rfl

/-- A client that lets no failure of the network through is not tried again. -/
theorem retrying_retrying (c : Client m) (policy outer : RetryPolicy) :
    (c.retrying policy).retrying outer = c.retrying policy := by
  simp only [retrying, persist_persist hcrash]

end Wrapping

/-- Each operation is tried with the same arguments until it is answered by something else than a
failure of the network, which is passed on as it is, or until the permitted tries are used up; no
failure of the network gets through.  So whatever client is inside and whatever policy outside,
trying again changes nothing for a client that tries again already. -/
theorem persistence_law (hbudget : policy.maxAttempts.toNat < UInt32.size - 1)
    (hcalm : Calm policy jitter) :
    (∀ (c : Client (StateM σ)) ops s, ∃ rs s',
      Runs jitter ((c.observed.retrying policy).play ops) s rs s' ∧
        Persisting policy jitter c ops s rs s') ∧
    (∀ (c : Client (Venture σ ω)) outer,
      (c.retrying policy).retrying outer = c.retrying policy) := by
  refine ⟨exists_persisting hbudget hcalm, fun c outer ↦ ?_⟩
  apply retrying_retrying
  intros
  rfl

/-! Two failures of the network, after which the network is well. -/

def recovering : Client (StateM Nat) where
  create _ _ _ := modifyGet fun n ↦
    (if n < 2 then .error (.transport .timeout) else .ok (), n + 1)
  call _ _ _ := modifyGet fun n ↦
    (if n < 2 then .error (.transport .timeout) else .ok .empty, n + 1)
  reachable := return true

open Repetition (stubborn)

theorem calm_stubborn : Calm stubborn fun _ ↦ .ofNat 1 := by
  intro draws count hcount
  have hconst : (List.range' draws count).map (fun _ ↦ Binary64.ofNat 1) =
      .replicate count (.ofNat 1) := by
    rw [List.map_const', List.length_range']
  have hcases : count = 0 ∨ count = 1 ∨ count = 2 := by
    have hpermitted : count ≤ 2 := hcount
    omega
  rw [Venture.delays, hconst]
  rcases hcases with rfl | rfl | rfl
  · exact ⟨[], Repetition.eq_ok_of_toOption (by decide +kernel)⟩
  · exact ⟨[.ofMillis 1000], Repetition.eq_ok_of_toOption (by decide +kernel)⟩
  · exact ⟨[.ofMillis 1000, .ofMillis 1500], Repetition.eq_ok_of_toOption (by decide +kernel)⟩

theorem persistence_law_of_recovering :
    ∃ s' ds, ds.length = 2 ∧
      Runs (fun _ ↦ .ofNat 1)
        ((((recovering.observed).retrying stubborn).retrying stubborn).play
          [.create "Counter" .empty ⟨"x"⟩]) ⟨0, 0, []⟩
        [⟨.create "Counter" .empty ⟨"x"⟩, .ok ()⟩] s' ∧
      s'.deeds = Venture.course (.create "Counter" .empty ⟨"x"⟩) ds := by
  obtain ⟨hruns, hwrapped⟩ :=
    @persistence_law Nat Operation stubborn _ (by decide) calm_stubborn
  obtain ⟨rs, s', hrun, hpersisting⟩ :=
    hruns recovering [.create "Counter" .empty ⟨"x"⟩] ⟨0, 0, []⟩
  cases hpersisting with
  | @operation _ _ _ _ r repeats ds _ _ h hnil =>
      cases hnil
      have hrepeats : repeats = 2 := by
        have hpermitted : repeats ≤ 2 := h.permitted
        have hcases : repeats = 0 ∨ repeats = 1 ∨ repeats = 2 := by omega
        rcases hcases with rfl | rfl | rfl
        · exact absurd (h.exhausted .timeout rfl).1 (by decide)
        · exact absurd (h.exhausted .timeout rfl).1 (by decide)
        · rfl
      subst hrepeats
      obtain rfl : r = .ok () := h.passedOn (fun e heq ↦ nomatch heq)
      rw [hwrapped]
      refine ⟨s', ds, h.length_delays, hrun, ?_⟩
      rw [h.course]
      rfl

end RemoteObjects.Client
