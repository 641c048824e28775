import RemoteObjects.Proofs.Retry.Schedule

/-!
# Delays that no duration holds

A delay is stretched before it is capped.  So a schedule crashes at a delay that is too long to be
stretched, even if the cap would have lowered what came of it.  A configuration may ask for any
delay below `2 ^ 64` seconds, and that is too many.  An exponential schedule comes to such a delay
from every first delay but zero, unless twice its cap can still be stretched.
-/

namespace RemoteObjects

open Binary64

theorem le_greatestJitter : 23 * one ≤ 16 * greatestJitter.units := by
  obtain ⟨b, hb⟩ : ∃ b, 52 + b = 1074 := ⟨1022, rfl⟩
  rw [greatestJitter_units hb, one_eq hb]
  omega

theorem isJitter_greatestJitter : isJitter (.finite greatestJitter) = true := by
  decide +kernel

/-- No delay of the schedule comes to be too long to be stretched. -/
def RetryPolicy.Moderate : RetryPolicy → Prop
  | .fixed _ delay => delay.nanos < Backoff.limit
  | .exponential _ base cap => base.nanos = 0 ∨ 2 * cap.nanos < Backoff.limit

instance : DecidablePred RetryPolicy.Moderate
  | .fixed _ delay => inferInstanceAs (Decidable (delay.nanos < Backoff.limit))
  | .exponential _ base cap =>
    inferInstanceAs (Decidable (base.nanos = 0 ∨ 2 * cap.nanos < Backoff.limit))

namespace Backoff

variable {b : Backoff} {n : UInt32} {base cap delay : Duration}

/-! ## Calls that crash -/

theorem le_stretched_greatestJitter {d : Duration} (hd : limit ≤ d.nanos) :
    UInt64.size * 1_000_000_000 ≤ d.stretched greatestJitter.units := by
  have hshortest : UInt64.size * 1_000_000_000 ≤
      (⟨limit, by decide⟩ : Duration).stretched greatestJitter.units := by decide +kernel
  exact hshortest.trans (Duration.stretched_mono hd (Nat.le_refl _))

theorem next_crashes (h : limit ≤ b.pending.nanos) :
    b.next (.finite greatestJitter) = .error .unbounded := by
  have hscale : b.pending.scale (.finite greatestJitter) = .error .unbounded := by
    rw [Duration.scale_eq rfl greatestJitter_le,
      dif_neg (Nat.not_lt.mpr (le_stretched_greatestJitter h))]
  rw [next_eq, hscale]
  rfl

theorem next_error {jitter : Binary64} {failure : Duration.Failure}
    (hjitter : isJitter jitter = true) (h : b.next jitter = .error failure) :
    failure = .unbounded := by
  obtain ⟨x, rfl, hx, -, hgreatest⟩ := exists_of_isJitter hjitter
  rw [next_eq, Duration.scale_eq hx (hgreatest.trans greatestJitter_le)] at h
  split at h
  · cases h
  · cases h
    rfl

theorem delays_error {jitters : List Binary64} {failure : Duration.Failure}
    (hjitters : ∀ jitter ∈ jitters, isJitter jitter = true)
    (h : b.delays jitters = .error failure) : failure = .unbounded := by
  induction jitters generalizing b with
  | nil => cases h
  | cons jitter rest ih =>
      obtain ⟨hjitter, hlater⟩ := List.forall_mem_cons.mp hjitters
      rw [delays] at h
      cases hnext : b.next jitter with
      | error failure' =>
          rw [hnext] at h
          cases h
          exact next_error hjitter hnext
      | ok next =>
          obtain ⟨d, b'⟩ := next
          cases hrest : b'.delays rest with
          | error failure' =>
              simp only [hnext, hrest, bind, Except.bind, Except.error.injEq] at h
              subst h
              exact ih hlater hrest
          | ok ds =>
              simp only [hnext, hrest, bind, Except.bind] at h
              cases h

/-! ## Schedules that never crash -/

theorem next_fixed {jitter : Binary64} (hb : b.policy = .fixed n delay)
    (hjitter : isJitter jitter = true) (hdelay : delay.nanos < limit) :
    ∃ d, b.next jitter = .ok (d, b) := by
  obtain ⟨x, rfl, hx, -, hgreatest⟩ := exists_of_isJitter hjitter
  have hshort : b.pending.nanos < limit := by
    rwa [pending_fixed hb]
  obtain ⟨e, -, hnext⟩ := next_of_lt hx hgreatest hshort
  rw [settle_fixed hb] at hnext
  exact ⟨e, hnext⟩

theorem exists_delays_fixed {jitters : List Binary64} (hdelay : delay.nanos < limit)
    (hjitters : ∀ jitter ∈ jitters, isJitter jitter = true) :
    ∃ ds, (start (.fixed n delay)).delays jitters = .ok ds := by
  apply exists_delays (P := fun b ↦ b.policy = .fixed n delay) _ hjitters rfl
  intro b jitter hb hjitter
  obtain ⟨d, hnext⟩ := next_fixed hb hjitter hdelay
  exact ⟨d, b, hnext, hb⟩

/-- No time stays no time. -/
theorem exists_delays_zero {jitters : List Binary64} (hbase : base.nanos = 0)
    (hjitters : ∀ jitter ∈ jitters, isJitter jitter = true) :
    ∃ ds, (start (.exponential n base cap)).delays jitters = .ok ds := by
  let P (b : Backoff) : Prop := b.policy = .exponential n base cap ∧ b.current.nanos = 0
  apply exists_delays (P := P) _ hjitters ⟨rfl, hbase⟩
  intro b jitter hP hjitter
  obtain ⟨x, rfl, hx, -, hgreatest⟩ := exists_of_isJitter hjitter
  have hshort : b.current.nanos < limit := by
    rw [hP.2]
    decide
  obtain ⟨d, hnext, hd⟩ := next_exponential hP.1 hx hgreatest hshort
  rw [Duration.stretched_of_eq_zero hP.2, Nat.zero_min] at hd
  refine ⟨d, _, hnext, hP.1, ?_⟩
  have hdouble : d.double.nanos = 2 * d.nanos := by
    apply Duration.nanos_double
    rw [hd]
    decide
  dsimp only
  omega

/-! ## Schedules that crash -/

theorem exists_crash_of_le (h : limit ≤ b.pending.nanos) :
    ∃ m, b.delays (List.replicate m (.finite greatestJitter)) = .error .unbounded := by
  refine ⟨1, ?_⟩
  rw [List.replicate_one, delays, next_crashes h]
  rfl

theorem min_le_nanos_double {d : Duration} {m : Nat} (hd : min m limit ≤ 2 * d.nanos) :
    min m limit ≤ d.double.nanos := by
  unfold Duration.double
  split
  · exact hd
  · have hmax : limit ≤ Duration.max.nanos := by decide
    exact (Nat.min_le_right _ _).trans hmax

/-- Under the greatest jitter factor a delay is doubled at least, or the double of the cap comes
next, until one is too long. -/
theorem exists_crash (hb : b.policy = .exponential n base cap) (hcap : limit ≤ 2 * cap.nanos)
    (k : Nat) (hcurrent : limit ≤ 2 ^ k * b.current.nanos) :
    ∃ m, b.delays (List.replicate m (.finite greatestJitter)) = .error .unbounded := by
  induction k generalizing b with
  | zero =>
      apply exists_crash_of_le
      rw [pending_exponential hb]
      omega
  | succ k ih =>
      rcases Nat.lt_or_ge b.current.nanos limit with hshort | hlong
      · obtain ⟨d, hnext, hd⟩ :=
          next_exponential hb (x := greatestJitter) rfl (Nat.le_refl _) hshort
        have hgrown := Duration.le_stretched (d := b.current) le_greatestJitter
        have hless : min (2 * b.current.nanos) limit ≤ d.double.nanos :=
          min_le_nanos_double (by omega)
        have hdouble : limit ≤ 2 ^ k * min (2 * b.current.nanos) limit := by
          rcases Nat.le_total (2 * b.current.nanos) limit with hle | hle
          · rw [Nat.min_eq_left hle, ← Nat.mul_assoc, ← Nat.pow_succ]
            exact hcurrent
          · rw [Nat.min_eq_right hle]
            exact Nat.le_mul_of_pos_left _ (Nat.two_pow_pos k)
        obtain ⟨m, hm⟩ := ih (b := { b with current := d.double }) hb
          (hdouble.trans (Nat.mul_le_mul_left _ hless))
        refine ⟨m + 1, ?_⟩
        rw [List.replicate_succ, delays, hnext]
        simp only [hm, bind, Except.bind]
      · apply exists_crash_of_le
        rw [pending_exponential hb]
        exact hlong

theorem moderate_of_delays {policy : RetryPolicy}
    (h : ∀ jitters : List Binary64, (∀ jitter ∈ jitters, isJitter jitter = true) →
      ∃ ds, (start policy).delays jitters = .ok ds) : policy.Moderate := by
  by_contra hlong
  have hcrash : ∃ m, (start policy).delays (List.replicate m (.finite greatestJitter)) =
      .error .unbounded := by
    cases policy with
    | fixed n delay => exact exists_crash_of_le (Nat.le_of_not_lt hlong)
    | exponential n base cap =>
        obtain ⟨hbase, hcap⟩ := not_or.mp hlong
        apply exists_crash rfl (Nat.le_of_not_lt hcap) 94
        have hfew : limit ≤ 2 ^ 94 := by decide
        exact hfew.trans (Nat.le_mul_of_pos_right _ (Nat.pos_of_ne_zero hbase))
  obtain ⟨m, hm⟩ := hcrash
  obtain ⟨ds, hds⟩ := h (List.replicate m (.finite greatestJitter)) fun jitter hjitter ↦ by
    rw [List.eq_of_mem_replicate hjitter]
    exact isJitter_greatestJitter
  rw [hm] at hds
  cases hds

/-- A schedule that comes of a configuration gives a delay at every call just if it is moderate; if
a call gives none, what it would give is too long. -/
theorem delays_iff_moderate {config : RetryConfig} {policy : RetryPolicy}
    (h : RetryPolicy.ofConfig config = .ok policy) :
    ((∀ jitters : List Binary64, (∀ jitter ∈ jitters, isJitter jitter = true) →
        ∃ ds, (start policy).delays jitters = .ok ds) ↔ policy.Moderate) ∧
      ∀ (jitters : List Binary64) (failure : Duration.Failure),
        (∀ jitter ∈ jitters, isJitter jitter = true) →
        (start policy).delays jitters = .error failure → failure = .unbounded := by
  refine ⟨⟨moderate_of_delays, ?_⟩, fun jitters failure hjitters ↦ delays_error hjitters⟩
  intro hmoderate jitters hjitters
  cases policy with
  | fixed n delay => exact exists_delays_fixed hmoderate hjitters
  | exponential n base cap =>
      rcases hmoderate with hbase | hcap
      · exact exists_delays_zero hbase hjitters
      · have hbase : base.nanos ≤ cap.nanos := (RetryPolicy.Built.ofConfig h).base_le
        apply exists_delays_exponential rfl hcap _ hjitters
        unfold start
        dsimp only
        omega

theorem delays_iff_moderate_default :
    (∀ jitters : List Binary64, (∀ jitter ∈ jitters, isJitter jitter = true) →
        ∃ ds, (start (.exponential 10 (.ofMillis 5000) (.ofMillis 300_000))).delays jitters =
          .ok ds) ∧
      ¬∀ jitters : List Binary64, (∀ jitter ∈ jitters, isJitter jitter = true) →
        ∃ ds, (start (.fixed 1 ⟨18_000_000_000_000_000_000 * 1_000_000_000, by decide⟩)).delays
          jitters = .ok ds := by
  have hdefault : RetryPolicy.ofConfig (.exponential 10 (.ofNat 5) (.ofNat 300)) =
      .ok (.exponential 10 (.ofMillis 5000) (.ofMillis 300_000)) := by
    decide +kernel
  have hlong : RetryPolicy.ofConfig (.fixed 1 (.ofNat 18_000_000_000_000_000_000)) =
      .ok (.fixed 1 ⟨18_000_000_000_000_000_000 * 1_000_000_000, by decide⟩) := by
    decide +kernel
  constructor
  · exact (delays_iff_moderate hdefault).1.mpr (by decide)
  · intro hall
    exact absurd ((delays_iff_moderate hlong).1.mp hall) (by decide)

theorem not_delays_of_ofConfig :
    ¬∀ (config : RetryConfig) (policy : RetryPolicy) (jitters : List Binary64),
      RetryPolicy.ofConfig config = .ok policy → (∀ jitter ∈ jitters, isJitter jitter = true) →
      ∃ ds, (start policy).delays jitters = .ok ds := by
  intro hall
  obtain ⟨ds, hds⟩ := hall
    (.exponential 1 (.ofNat 18_000_000_000_000_000_000) (.ofNat 18_000_000_000_000_000_000))
    (.capped 1 ⟨18_000_000_000_000_000_000 * 1_000_000_000, by decide⟩
      ⟨18_000_000_000_000_000_000 * 1_000_000_000, by decide⟩)
    [.ofRatio false 7 5] (by decide +kernel) (by decide +kernel)
  have hcrash : (start (.capped 1 ⟨18_000_000_000_000_000_000 * 1_000_000_000, by decide⟩
      ⟨18_000_000_000_000_000_000 * 1_000_000_000, by decide⟩)).delays [.ofRatio false 7 5] =
      .error .unbounded := by
    decide +kernel
  rw [hcrash] at hds
  cases hds

end Backoff

end RemoteObjects
