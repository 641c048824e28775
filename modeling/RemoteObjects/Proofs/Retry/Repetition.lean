import Mathlib.Order.Bounds.Defs
import RemoteObjects.Retry.Loop

/-!
# How an operation is repeated

An operation that answers one thing after another, and a source of jitter, are given as endless
sequences.  Then everything that a policy does is determined: it stops at the first answer that
settles the matter, or when its repetitions are used up, and between two calls it waits once, for
the next delay of its schedule.
-/

namespace RemoteObjects

/-- The delays of a schedule under some jitter factors, the earliest first. -/
def Backoff.delays (b : Backoff) : List Binary64 → Except Duration.Failure (List Duration)
  | [] => .ok []
  | jitter :: rest => do
    let (delay, b) ← b.next jitter
    return delay :: (← b.delays rest)

theorem Backoff.delays_cons {b : Backoff} {jitter : Binary64} {rest : List Binary64}
    {ds : List Duration} (h : b.delays (jitter :: rest) = .ok ds) :
    ∃ d b' ds', b.next jitter = .ok (d, b') ∧ b'.delays rest = .ok ds' ∧ ds = d :: ds' := by
  rw [delays] at h
  cases hnext : b.next jitter with
  | error failure =>
      rw [hnext] at h
      cases h
  | ok next =>
      obtain ⟨d, b'⟩ := next
      cases hrest : b'.delays rest with
      | error failure =>
          simp only [hnext, hrest, bind, Except.bind] at h
          cases h
      | ok ds' =>
          simp only [hnext, hrest, bind, Except.bind, pure, Except.pure, Except.ok.injEq] at h
          exact ⟨d, b', ds', rfl, hrest, h.symm⟩

namespace Repetition

variable {ε α β γ : Type}

/-! ## Trials -/

/-- What an operation answers to its calls, and the jitter factors that are drawn. -/
structure Trial (ε α : Type) where
  outcome : Nat → Except ε α
  jitter : Nat → Binary64

/-- Something that is done while an operation is repeated.  To draw a jitter factor is to go on in
the schedule. -/
inductive Deed where
  | called
  | drew
  | slept (d : Duration)
  deriving DecidableEq

structure Progress where
  calls : Nat
  draws : Nat
  /-- What was done, the earliest first. -/
  deeds : List Deed

/-- Code that runs in a trial; what it reports is passed over. -/
abbrev Trying (ε α : Type) : Type → Type := ReaderT (Trial ε α) (ExceptT String (StateM Progress))

namespace Trying

def did (d : Deed) : Trying ε α Unit :=
  modify fun p ↦ { p with deeds := p.deeds ++ [d] }

instance : Effects (Trying ε α) where
  sleep d := did (.slept d)
  jitter := do
    let draws := (← get).draws
    modify fun p ↦ { p with draws := draws + 1 }
    did .drew
    return (← read).jitter draws
  log _ := pure ()
  crash reason := throw reason

/-- The operation on trial. -/
def operation : Trying ε α (Except ε α) := do
  let calls := (← get).calls
  modify fun p ↦ { p with calls := calls + 1 }
  did .called
  return (← read).outcome calls

/-- Whether code comes to an end, and with what. -/
def Runs (t : Trial ε α) (x : Trying ε α β) (p : Progress) (b : β) (p' : Progress) : Prop :=
  (x.run t).run.run p = (.ok b, p')

variable {t : Trial ε α} {p p' p'' : Progress}

theorem Runs.pure (b : β) : Runs t (Pure.pure b) p b p := rfl

theorem Runs.bind {x : Trying ε α β} {f : β → Trying ε α γ} {b : β} {c : γ}
    (hx : Runs t x p b p') (hf : Runs t (f b) p' c p'') : Runs t (x >>= f) p c p'' := by
  rw [Runs, ReaderT.run_bind, ExceptT.run_bind, StateT.run_bind, hx]
  exact hf

theorem operation_runs :
    Runs t operation p (t.outcome p.calls) ⟨p.calls + 1, p.draws, p.deeds ++ [.called]⟩ := rfl

theorem jitter_runs : Runs t (Effects.jitter : Trying ε α Binary64) p (t.jitter p.draws)
    ⟨p.calls, p.draws + 1, p.deeds ++ [.drew]⟩ := rfl

theorem sleep_runs (d : Duration) : Runs t (Effects.sleep d : Trying ε α Unit) p ()
    ⟨p.calls, p.draws, p.deeds ++ [.slept d]⟩ := rfl

theorem log_runs (e : Event) : Runs t (Effects.log e : Trying ε α Unit) p () p := rfl

end Trying

/-! ## One attempt after another -/

open Trying

/-- Whether an answer is not worth another call. -/
def Settles (again : ε → Bool) : Except ε α → Prop
  | .ok _ => True
  | .error e => again e = false

theorem again_of_not_settles {again : ε → Bool} {outcome : Except ε α}
    (h : ¬Settles again outcome) : ∃ e, outcome = .error e ∧ again e = true := by
  cases outcome with
  | ok a => exact absurd trivial h
  | error e => exact ⟨e, rfl, (Bool.not_eq_false _).mp h⟩

/-- What becomes of an answer after which there is no further call. -/
def verdict (again : ε → Bool) (attempts : UInt32) : Except ε α → Except (RetryError ε) α
  | .ok a => .ok a
  | .error e => .error (if again e then .exhausted attempts e else .aborted e)

/-- A sense in which code comes to an end: from which state, with what, and in which state. -/
structure Running (m : Type → Type) [Monad m] [Effects m] (σ : Type) where
  Runs {α : Type} : m α → σ → α → σ → Prop
  pure {α : Type} {s : σ} (a : α) : Runs (Pure.pure a) s a s
  bind {α β : Type} {x : m α} {f : α → m β} {a : α} {b : β} {s s' s'' : σ} :
    Runs x s a s' → Runs (f a) s' b s'' → Runs (x >>= f) s b s''
  log {s : σ} (e : Event) : Runs (Effects.log e) s () s

namespace Running

variable {m : Type → Type} [Monad m] [Effects m] {σ : Type} {again : ε → Bool}
  {op : m (Except ε α)} {s s' s₁ s₂ s₃ : σ} {outcome : Except ε α}

/-- Tries of an operation, each in vain and followed by the next delay, and one try more. -/
inductive Repeats (R : Running m σ) (again : ε → Bool) (op : m (Except ε α)) :
    Backoff → σ → Nat → Except ε α → σ → Prop
  | last {b : Backoff} {s s' : σ} {outcome : Except ε α} :
      R.Runs op s outcome s' → Repeats R again op b s 0 outcome s'
  | again {b b' : Backoff} {s s₁ s₂ s₃ s' : σ} {e : ε} {factor : Binary64} {d : Duration}
      {k : Nat} {outcome : Except ε α} :
      R.Runs op s (.error e) s₁ → again e = true → R.Runs Effects.jitter s₁ factor s₂ →
      b.next factor = .ok (d, b') → R.Runs (Effects.sleep d) s₂ () s₃ →
      Repeats R again op b' s₃ k outcome s' → Repeats R again op b s (k + 1) outcome s'

variable [ToString ε] (R : Running m σ)

/-- An answer that is worth another call leads to it, after the next delay. -/
theorem attempt_again {left : Nat} {done : UInt32} {b b' : Backoff} {factor : Binary64}
    {d : Duration} {e : ε} {r : Except (RetryError ε) α} (hop : R.Runs op s (.error e) s₁)
    (hagain : again e = true) (hjitter : R.Runs Effects.jitter s₁ factor s₂)
    (hnext : b.next factor = .ok (d, b')) (hsleep : R.Runs (Effects.sleep d) s₂ () s₃)
    (hrest : R.Runs (RetryPolicy.attempt again op left (done + 1) b') s₃ r s') :
    R.Runs (RetryPolicy.attempt again op (left + 1) done b) s r s' := by
  rw [RetryPolicy.attempt]
  apply R.bind hop
  simp only [hagain, Bool.not_true, Bool.false_eq_true, if_false]
  apply R.bind hjitter
  simp only [hnext]
  apply R.bind (R.log _)
  apply R.bind hsleep
  exact hrest

/-- An answer that settles the matter, or comes when no repetition is left, is the last one. -/
theorem attempt_last {left : Nat} {done : UInt32} {b : Backoff} (hop : R.Runs op s outcome s')
    (hlast : left = 0 ∨ Settles again outcome) :
    R.Runs (RetryPolicy.attempt again op left done b) s (verdict again (done + 1) outcome) s' := by
  rw [RetryPolicy.attempt]
  apply R.bind hop
  cases outcome with
  | ok a => exact R.pure _
  | error e =>
      cases hagain : again e with
      | false =>
          simp only [verdict, hagain]
          exact R.pure _
      | true =>
          rcases hlast with rfl | hsettles
          · simp only [verdict, hagain]
            exact R.bind (R.log _) (R.pure _)
          · exact absurd (hsettles.symm.trans hagain) Bool.false_ne_true

/-- As many repetitions as are worth it and permitted follow one another. -/
theorem attempts_run {left k : Nat} {done : UInt32} {b : Backoff}
    (h : R.Repeats again op b s k outcome s') (hk : k ≤ left)
    (hlast : k = left ∨ Settles again outcome) :
    R.Runs (RetryPolicy.attempt again op left done b) s
      (verdict again (done + .ofNat k + 1) outcome) s' := by
  induction h generalizing left done with
  | last hop =>
      have hdone : done + .ofNat 0 = done := by simp
      rw [hdone]
      exact R.attempt_last hop (hlast.imp_left Eq.symm)
  | @again _ _ _ _ _ _ _ _ _ _ k _ hop hagain hjitter hnext hsleep _ ih =>
      obtain ⟨left, rfl⟩ := Nat.exists_eq_add_one_of_ne_zero (Nat.ne_zero_of_lt hk)
      have hrest := @ih left (done + 1) (Nat.le_of_succ_le_succ hk) (hlast.imp_left Nat.succ.inj)
      have hdone : done + 1 + .ofNat k + 1 = done + .ofNat (k + 1) + 1 := by
        rw [UInt32.ofNat_add, UInt32.add_assoc done, UInt32.add_comm 1]
        rfl
      rw [hdone] at hrest
      exact R.attempt_again hop hagain hjitter hnext hsleep hrest

end Running

def Trying.running (t : Trial ε α) : Running (Trying ε α) Progress :=
  ⟨Runs t, Runs.pure, Runs.bind, log_runs⟩

/-- All that is done when these delays lie between the calls. -/
def course (ds : List Duration) : List Deed :=
  ds.flatMap (fun d ↦ [.called, .drew, .slept d]) ++ [.called]

/-- The jitter factors that so many further draws yield. -/
def Trial.jitters (t : Trial ε α) (draws count : Nat) : List Binary64 :=
  (List.range' draws count).map t.jitter

theorem course_cons (d : Duration) (ds : List Duration) :
    course (d :: ds) = [.called, .drew, .slept d] ++ course ds := by
  simp [course]

variable {t : Trial ε α} {again : ε → Bool} {p : Progress}

/-- Calls in vain follow one another as long as there are delays between them. -/
theorem repeats_running {k : Nat} {b : Backoff} {ds : List Duration}
    (hagain : ∀ i < k, ¬Settles again (t.outcome (p.calls + i)))
    (hdelays : b.delays (t.jitters p.draws k) = .ok ds) :
    (running t).Repeats again operation b p k (t.outcome (p.calls + k))
      ⟨p.calls + k + 1, p.draws + k, p.deeds ++ course ds⟩ := by
  induction k generalizing b ds p with
  | zero =>
      cases hdelays
      exact .last operation_runs
  | succ k ih =>
      obtain ⟨d, b', ds', hnext, hrest, rfl⟩ := Backoff.delays_cons hdelays
      obtain ⟨e, hanswer, he⟩ := again_of_not_settles (hagain 0 (Nat.succ_pos k))
      have hcalled := @operation_runs _ _ t p
      rw [← Nat.add_zero p.calls, hanswer] at hcalled
      have hshift (i : Nat) : p.calls + 1 + i = p.calls + (i + 1) := by omega
      have hlater : ∀ i < k, ¬Settles again (t.outcome (p.calls + 1 + i)) := by
        intro i hi
        rw [hshift]
        exact hagain (i + 1) (Nat.succ_lt_succ hi)
      have hrepeats := @ih ⟨p.calls + 1, p.draws + 1, p.deeds ++ [.called] ++ [.drew] ++ [.slept d]⟩
        b' ds' hlater hrest
      have hdraws : p.draws + 1 + k = p.draws + (k + 1) := by omega
      have hdeeds : p.deeds ++ [.called] ++ [.drew] ++ [.slept d] ++ course ds' =
          p.deeds ++ course (d :: ds') := by simp [course_cons]
      simp only [hshift, hdraws, hdeeds] at hrepeats
      exact .again hcalled he jitter_runs hnext (sleep_runs d) hrepeats

/-! ## What a policy does -/

/-- What comes of code in a trial, and what is done in the meantime. -/
def Trial.run (t : Trial ε α) (x : Trying ε α β) : Except String β × Progress :=
  (ReaderT.run x t).run.run ⟨0, 0, []⟩

variable [ToString ε]

theorem retryIf_run {policy : RetryPolicy} {k : Nat} {ds : List Duration}
    (hk : k ≤ policy.maxAttempts.toNat) (hagain : ∀ i < k, ¬Settles again (t.outcome i))
    (hlast : k = policy.maxAttempts.toNat ∨ Settles again (t.outcome k))
    (hdelays : (Backoff.start policy).delays (t.jitters 0 k) = .ok ds) :
    t.run (policy.retryIf again operation) =
      (.ok (verdict again (.ofNat k + 1) (t.outcome k)), ⟨k + 1, k, course ds⟩) := by
  have hbefore : ∀ i < k, ¬Settles again (t.outcome (0 + i)) := by
    intro i hi
    rw [Nat.zero_add]
    exact hagain i hi
  have hend : k = policy.maxAttempts.toNat ∨ Settles again (t.outcome (0 + k)) := by
    rwa [Nat.zero_add]
  have hrepeats := @repeats_running _ _ t again ⟨0, 0, []⟩ k _ ds hbefore hdelays
  have hruns : (running t).Runs (RetryPolicy.attempt again operation _ 0 _) _ _ _ :=
    (running t).attempts_run hrepeats hk hend
  simp only [Nat.zero_add, UInt32.zero_add, List.nil_append] at hruns
  exact hruns

/-- An operation is called until it answers what settles the matter, and no more often than is
permitted; if the permitted calls are used up, the last failure is passed on.  Between two calls
the next delay of the schedule is waited for, and nothing follows the last call. -/
theorem repetition_law (policy : RetryPolicy) (t : Trial ε α) (again : ε → Bool) {m : Nat}
    (hm : policy.maxAttempts.toNat = m) (hbudget : m < UInt32.size - 1) :
    (∀ k ds, k ≤ m → IsLeast {i | Settles again (t.outcome i)} k →
      (Backoff.start policy).delays (t.jitters 0 k) = .ok ds →
        t.run (policy.retryIf again operation) =
          (.ok ((t.outcome k).mapError .aborted), ⟨k + 1, k, course ds⟩)) ∧
    (∀ ds, (∀ k ≤ m, ¬Settles again (t.outcome k)) →
      (Backoff.start policy).delays (t.jitters 0 m) = .ok ds →
        ∃ attempts e, attempts.toNat = m + 1 ∧ t.outcome m = .error e ∧
          t.run (policy.retryIf again operation) =
            (.ok (.error (.exhausted attempts e)), ⟨m + 1, m, course ds⟩)) ∧
    policy.retry (operation : Trying ε α _) = policy.retryIf (fun _ ↦ true) operation := by
  subst hm
  refine ⟨?_, ?_, rfl⟩
  · intro k ds hk hfirst hdelays
    have hbefore : ∀ i < k, ¬Settles again (t.outcome i) :=
      fun i hi hsettles ↦ Nat.not_le.mpr hi (hfirst.2 hsettles)
    have hsettles : Settles again (t.outcome k) := hfirst.1
    rw [retryIf_run hk hbefore (.inr hsettles) hdelays]
    cases hanswer : t.outcome k with
    | ok a => rfl
    | error e =>
        rw [hanswer] at hsettles
        have he : again e = false := hsettles
        rw [verdict, he]
        rfl
  · intro ds hnever hdelays
    obtain ⟨e, hanswer, he⟩ := again_of_not_settles (hnever _ (Nat.le_refl _))
    have hbefore : ∀ i < policy.maxAttempts.toNat, ¬Settles again (t.outcome i) :=
      fun i hi ↦ hnever i (Nat.le_of_lt hi)
    have hattempts : (policy.maxAttempts + 1).toNat = policy.maxAttempts.toNat + 1 := by
      rw [UInt32.toNat_add]
      exact Nat.mod_eq_of_lt (Nat.add_lt_of_lt_sub hbudget)
    refine ⟨policy.maxAttempts + 1, e, hattempts, hanswer, ?_⟩
    rw [retryIf_run (Nat.le_refl _) hbefore (.inl rfl) hdelays, hanswer]
    simp [verdict, he]

/-! Two failures before a success, which comes with the last call permitted, and nothing but
failures. -/

def stubborn : RetryPolicy := .exponential 2 (.ofMillis 1000) (.ofMillis 1500)

def failing (failures : Nat) : Trial String Nat where
  outcome i := if i < failures then .error "busy" else .ok i
  jitter _ := .ofNat 1

theorem eq_ok_of_toOption {x : Except γ β} {b : β} (h : x.toOption = some b) : x = .ok b := by
  cases x with
  | error c => cases h
  | ok a => exact congrArg Except.ok (Option.some.inj h)

theorem delays_stubborn (failures : Nat) :
    (Backoff.start stubborn).delays ((failing failures).jitters 0 2) =
      .ok [.ofMillis 1000, .ofMillis 1500] := by
  simp only [Trial.jitters, List.range', List.map_cons, List.map_nil, failing]
  apply eq_ok_of_toOption
  decide +kernel

theorem repetition_law_of_stubborn :
    (failing 2).run (stubborn.retryIf (fun _ ↦ true) operation) =
      (.ok (.ok 2), ⟨3, 2, [.called, .drew, .slept (.ofMillis 1000), .called, .drew,
        .slept (.ofMillis 1500), .called]⟩) ∧
    ∃ attempts, attempts.toNat = 3 ∧
      (failing 3).run (stubborn.retryIf (fun _ ↦ true) operation) =
        (.ok (.error (.exhausted attempts "busy")), ⟨3, 2, [.called, .drew,
          .slept (.ofMillis 1000), .called, .drew, .slept (.ofMillis 1500), .called]⟩) := by
  have hm : stubborn.maxAttempts.toNat = 2 := rfl
  constructor
  · have hleast : IsLeast {i | Settles (fun _ ↦ true) ((failing 2).outcome i)} 2 := by
      refine ⟨trivial, fun i hi ↦ ?_⟩
      apply Nat.le_of_not_lt
      intro hsmall
      have hanswer : (failing 2).outcome i = .error "busy" := if_pos hsmall
      change Settles _ ((failing 2).outcome i) at hi
      rw [hanswer] at hi
      cases hi
    exact (repetition_law stubborn (failing 2) (fun _ ↦ true) hm (by decide)).1 2 _ (by decide)
      hleast (delays_stubborn 2)
  · have hnever : ∀ k ≤ 2, ¬Settles (fun _ ↦ true) ((failing 3).outcome k) := by
      intro k hk hsettles
      have hanswer : (failing 3).outcome k = .error "busy" := if_pos (Nat.lt_succ_of_le hk)
      rw [hanswer] at hsettles
      cases hsettles
    obtain ⟨attempts, e, hattempts, hanswer, hrun⟩ :=
      (repetition_law stubborn (failing 3) (fun _ ↦ true) hm (by decide)).2.1 _ hnever
        (delays_stubborn 3)
    cases hanswer
    exact ⟨attempts, hattempts, hrun⟩

end Repetition

end RemoteObjects
