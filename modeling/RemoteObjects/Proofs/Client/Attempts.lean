import RemoteObjects.Proofs.Client.Stacking
import RemoteObjects.Proofs.Retry.Excess

/-!
# How many attempts are reported

Whoever gives up says how many attempts were made, in 32 bits.  A policy may permit as many
repetitions as 32 bits can tell, and then one attempt more is made.  So the report is right for
every policy but the one that permits the most: there it begins again at zero.

A client passes the report of the repetition on as it is.
-/

namespace RemoteObjects

theorem toNat_add_one_eq_iff {n : UInt32} :
    (n + 1).toNat = n.toNat + 1 ↔ n.toNat ≠ UInt32.size - 1 := by
  have hn : n.toNat < UInt32.size := n.toNat_lt_size
  have hadd : (n + 1).toNat = (n.toNat + 1) % UInt32.size := n.toNat_add 1
  rw [hadd]
  constructor
  · intro heq htop
    rw [htop] at heq
    exact absurd heq (by decide)
  · intro hne
    exact Nat.mod_eq_of_lt (by omega)

namespace Venture

variable {σ ω : Type}

def Deed.isTry : Deed ω → Bool
  | .tried _ => true
  | .drew | .slept _ => false

/-- How often something was tried. -/
def tries (deeds : List (Deed ω)) : Nat := deeds.countP Deed.isTry

theorem tries_course (x : ω) (ds : List Duration) : tries (course x ds) = ds.length + 1 := by
  induction ds with
  | nil => rfl
  | cons d ds ih =>
      rw [course_cons, tries, List.countP_append]
      change 1 + tries (course x ds) = _
      rw [ih, List.length_cons]
      omega

end Venture

namespace Client

open Repetition (Settles Trial stubborn failing again_of_not_settles retryIf_run verdict)
open Repetition.Trying (operation)
open Venture (Runs Affairs answers tries)

/-- If no answer settles the matter, what is reported is one more than the permitted repetitions,
as far as 32 bits can tell. -/
theorem exhausted_run {ε α : Type} [ToString ε] {policy : RetryPolicy} {t : Trial ε α}
    {again : ε → Bool} {ds : List Duration}
    (hnever : ∀ k ≤ policy.maxAttempts.toNat, ¬Settles again (t.outcome k))
    (hdelays : (Backoff.start policy).delays (t.jitters 0 policy.maxAttempts.toNat) = .ok ds) :
    ∃ e p, t.run (policy.retryIf again operation) =
        (.ok (.error (.exhausted (policy.maxAttempts + 1) e)), p) ∧
      p.calls = policy.maxAttempts.toNat + 1 := by
  obtain ⟨e, hanswer, he⟩ := again_of_not_settles (hnever _ (Nat.le_refl _))
  have hbefore : ∀ i < policy.maxAttempts.toNat, ¬Settles again (t.outcome i) := by
    intro i hi
    exact hnever i (Nat.le_of_lt hi)
  have hrun := retryIf_run (Nat.le_refl _) hbefore (.inl rfl) hdelays
  rw [hanswer, UInt32.ofNat_toNat, verdict, he] at hrun
  exact ⟨e, _, hrun, rfl⟩

/-- If the network fails at every try, the client reports what the repetition reports. -/
theorem retriesExhausted_runs {σ : Type} {policy : RetryPolicy} {jitter : Nat → Binary64}
    {c : Client (StateM σ)} {o : Operation} {s : Affairs σ Operation} {ds : List Duration}
    (hfails : ∀ k ≤ policy.maxAttempts.toNat,
      ∃ e, answers (c.perform o) s.scene k = .error (.transport e))
    (hdelays : Venture.delays jitter (.start policy) s.draws policy.maxAttempts.toNat = .ok ds) :
    ∃ e s',
      Runs jitter (policy.retryIf Error.isTransient (c.observed.perform o)) s
        (.error (.exhausted (policy.maxAttempts + 1) (.transport e))) s' ∧
      Runs jitter ((c.observed.retrying policy).perform o) s
        (.error (.retriesExhausted (policy.maxAttempts + 1) (.transport e))) s' ∧
      tries s'.deeds = tries s.deeds + policy.maxAttempts.toNat + 1 := by
  obtain ⟨e, hanswer⟩ := hfails _ (Nat.le_refl _)
  have hagain : ∀ i < policy.maxAttempts.toNat,
      ¬Settles Error.isTransient (answers (c.perform o) s.scene i) := by
    intro i hi
    exact not_settles_iff.mpr (hfails i (Nat.le_of_lt hi))
  have hop : Venture.Tries jitter (c.observed.perform o) o (c.perform o) := by
    rw [perform_observed]
    exact Venture.trial_tries o _
  have hloop : Runs jitter (policy.retryIf Error.isTransient (c.observed.perform o)) s _ _ :=
    (Venture.running jitter).attempts_run (Venture.repeats_running hop hagain hdelays)
      (Nat.le_refl _) (.inl rfl)
  rw [hanswer, UInt32.zero_add, UInt32.ofNat_toNat] at hloop
  refine ⟨e, _, hloop, ?_, ?_⟩
  · rw [perform_retrying]
    exact hloop.bind (.pure _)
  · have hcourse := Venture.tries_course o ds
    rw [Venture.length_of_delays hdelays] at hcourse
    rw [tries, List.countP_append]
    change tries s.deeds + tries (Venture.course o ds) = _
    rw [hcourse, Nat.add_assoc]

/-- When all attempts are in vain, the reported number is the number of attempts just if the policy
does not permit the most repetitions that 32 bits can tell; then it is zero instead.  A client
reports the same number about the same attempts. -/
theorem attempts_exact_iff (policy : RetryPolicy) :
    (∀ {ε α : Type} [ToString ε] (t : Trial ε α) (again : ε → Bool) (ds : List Duration),
      (∀ k ≤ policy.maxAttempts.toNat, ¬Settles again (t.outcome k)) →
      (Backoff.start policy).delays (t.jitters 0 policy.maxAttempts.toNat) = .ok ds →
      ∃ attempts e p, t.run (policy.retryIf again operation) =
          (.ok (.error (.exhausted attempts e)), p) ∧
        p.calls = policy.maxAttempts.toNat + 1 ∧
        (attempts.toNat = p.calls ↔ policy.maxAttempts.toNat ≠ UInt32.size - 1) ∧
        (attempts.toNat = 0 ↔ policy.maxAttempts.toNat = UInt32.size - 1)) ∧
    (∀ {σ : Type} (jitter : Nat → Binary64) (c : Client (StateM σ)) (o : Operation)
        (s : Affairs σ Operation) (ds : List Duration),
      (∀ k ≤ policy.maxAttempts.toNat,
        ∃ e, answers (c.perform o) s.scene k = .error (.transport e)) →
      Venture.delays jitter (.start policy) s.draws policy.maxAttempts.toNat = .ok ds →
      ∃ attempts e s',
        Runs jitter (policy.retryIf Error.isTransient (c.observed.perform o)) s
          (.error (.exhausted attempts (.transport e))) s' ∧
        Runs jitter ((c.observed.retrying policy).perform o) s
          (.error (.retriesExhausted attempts (.transport e))) s' ∧
        (tries s'.deeds = tries s.deeds + attempts.toNat ↔
          policy.maxAttempts.toNat ≠ UInt32.size - 1)) := by
  have hexact := @toNat_add_one_eq_iff policy.maxAttempts
  constructor
  · intro ε α _ t again ds hnever hdelays
    obtain ⟨e, p, hrun, hcalls⟩ := exhausted_run hnever hdelays
    refine ⟨_, e, p, hrun, hcalls, ?_, ?_⟩
    · rw [hcalls]
      exact hexact
    · by_cases htop : policy.maxAttempts.toNat = UInt32.size - 1
      · have hadd : (policy.maxAttempts + 1).toNat = (policy.maxAttempts.toNat + 1) % UInt32.size :=
          policy.maxAttempts.toNat_add 1
        rw [hadd, htop]
        decide
      · rw [hexact.mpr htop]
        exact ⟨fun hzero ↦ absurd hzero (Nat.succ_ne_zero _), fun heq ↦ absurd heq htop⟩
  · intro σ jitter c o s ds hfails hdelays
    obtain ⟨e, s', hloop, hruns, htries⟩ := retriesExhausted_runs hfails hdelays
    refine ⟨_, e, s', hloop, hruns, ?_⟩
    rw [htries, ← hexact]
    omega

/-! Three failures, and no success before all attempts are used up; a network that is always down;
and a policy that permits the most repetitions. -/

def cutOff : Client (StateM Nat) where
  create _ _ _ := modifyGet fun n ↦ (.error (.transport .timeout), n + 1)
  call _ _ _ := modifyGet fun n ↦ (.error (.transport .timeout), n + 1)
  reachable := return false

theorem attempts_exact_iff_stubborn :
    (∃ attempts e p, (failing 3).run (stubborn.retryIf (fun _ ↦ true) operation) =
        (.ok (.error (.exhausted attempts e)), p) ∧ p.calls = 3 ∧ attempts.toNat = p.calls) ∧
    ∃ attempts e s',
      Runs (fun _ ↦ .ofNat 1) ((cutOff.observed.retrying stubborn).perform
          (.create "Counter" .empty ⟨"x"⟩)) ⟨0, 0, []⟩
        (.error (.retriesExhausted attempts (.transport e))) s' ∧
      tries s'.deeds = attempts.toNat := by
  obtain ⟨hloop, hclient⟩ := attempts_exact_iff stubborn
  constructor
  · have hnever : ∀ k ≤ stubborn.maxAttempts.toNat,
        ¬Settles (fun _ ↦ true) ((failing 3).outcome k) := by
      intro k hk hsettles
      have hanswer : (failing 3).outcome k = .error "busy" := if_pos (Nat.lt_succ_of_le hk)
      rw [hanswer] at hsettles
      cases hsettles
    obtain ⟨attempts, e, p, hrun, hcalls, hexact, -⟩ :=
      hloop (failing 3) (fun _ ↦ true) _ hnever (Repetition.delays_stubborn 3)
    exact ⟨attempts, e, p, hrun, hcalls, hexact.mpr (by decide)⟩
  · obtain ⟨ds, hds⟩ := calm_stubborn 0 _ (Nat.le_refl _)
    obtain ⟨attempts, e, s', -, hruns, htries⟩ :=
      hclient (fun _ ↦ .ofNat 1) cutOff (.create "Counter" .empty ⟨"x"⟩) ⟨0, 0, []⟩ ds
        (fun _ _ ↦ ⟨.timeout, rfl⟩) hds
    refine ⟨attempts, e, s', hruns, ?_⟩
    rw [htries.mpr (by decide)]
    exact Nat.zero_add _

/-- Repetitions without delay, as many as 32 bits can tell. -/
def tireless : RetryPolicy := .fixed 4_294_967_295 .zero

def hopeless : Trial String Nat where
  outcome _ := .error "busy"
  jitter _ := .ofNat 1

/-- Not every budget is reported rightly. -/
theorem not_attempts_exact :
    ¬∀ (policy : RetryPolicy) (t : Trial String Nat),
      (∀ k, ¬Settles (fun _ ↦ true) (t.outcome k)) → (∀ k, isJitter (t.jitter k) = true) →
      ∃ attempts e p, t.run (policy.retry operation) =
          (.ok (.error (.exhausted attempts e)), p) ∧ attempts.toNat = p.calls := by
  intro hall
  have hnever : ∀ k, ¬Settles (fun _ ↦ true) (hopeless.outcome k) := by
    rintro k ⟨⟩
  have hjitter : ∀ k, isJitter (hopeless.jitter k) = true := by
    intro k
    simp only [hopeless]
    decide +kernel
  obtain ⟨ds, hds⟩ : ∃ ds, (Backoff.start tireless).delays
      (hopeless.jitters 0 tireless.maxAttempts.toNat) = .ok ds := by
    have hzero : Duration.zero.nanos < Backoff.limit := by decide
    refine Backoff.exists_delays_fixed hzero ?_
    intro jitter hmem
    obtain ⟨k, -, rfl⟩ := List.mem_map.mp hmem
    exact hjitter k
  obtain ⟨e, p, hrun, hcalls⟩ := exhausted_run (fun k _ ↦ hnever k) hds
  obtain ⟨attempts, e', p', hrun', hattempts⟩ := hall tireless hopeless hnever hjitter
  have hsame := hrun.symm.trans hrun'
  cases hsame
  rw [hcalls] at hattempts
  exact absurd hattempts (by decide)

end Client

end RemoteObjects
