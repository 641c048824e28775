import RemoteObjects.Proofs.Duration
import RemoteObjects.Proofs.Retry.Repetition

/-!
# How delays grow

The delays of an exponential schedule never exceed the cap.  If the cap is at most `2 ^ 23` seconds,
they also never decrease, because the least jitter factor takes no more than the doubling has given.

A delay that is too long once it is stretched is no duration, and then a schedule crashes before
the cap could help.  How long a delay may be is found at the greatest jitter factor, since a greater
factor gives no less.
-/

namespace RemoteObjects

open Binary64

/-! ## Jitter factors -/

/-- One half. -/
def leastJitter : Finite := ⟨false, ⟨1022 * 2 ^ 52, by decide⟩⟩

/-- The last number below one and a half. -/
def greatestJitter : Finite := ⟨false, ⟨1023 * 2 ^ 52 + 2 ^ 51 - 1, by decide⟩⟩

theorem two_mul_leastJitter : one = 2 * leastJitter.units := by
  obtain ⟨b, hb⟩ : ∃ b, 53 + b = 1074 := ⟨1021, rfl⟩
  have hcode : 1022 * 2 ^ 52 = b * 2 ^ 52 + 2 ^ 52 := by omega
  have hunits : leastJitter.units = 2 ^ 52 * 2 ^ b := by
    have hbinade := unitsOfCode_binade (b := b) (Nat.le_refl (2 ^ 52)) (by decide)
    rwa [← hcode] at hbinade
  rw [hunits, one_eq hb]
  omega

theorem greatestJitter_units {b : Nat} (hb : 52 + b = 1074) :
    greatestJitter.units = (3 * 2 ^ 51 - 1) * 2 ^ b := by
  have hcode : 1023 * 2 ^ 52 + 2 ^ 51 - 1 = b * 2 ^ 52 + (3 * 2 ^ 51 - 1) := by omega
  have hbinade := unitsOfCode_binade (b := b) (m := 3 * 2 ^ 51 - 1) (by decide) (by decide)
  rwa [← hcode] at hbinade

theorem greatestJitter_le : greatestJitter.units ≤ 2 * one := by
  obtain ⟨b, hb⟩ : ∃ b, 52 + b = 1074 := ⟨1022, rfl⟩
  rw [greatestJitter_units hb, one_eq hb]
  omega

theorem exists_of_isJitter {jitter : Binary64} (h : isJitter jitter = true) :
    ∃ x : Finite, jitter = .finite x ∧ x.negative = false ∧ leastJitter.units ≤ x.units ∧
      x.units ≤ greatestJitter.units := by
  have hlow : ofRatio false 1 2 = .finite leastJitter := by decide +kernel
  have hhigh : ofRatio false 3 2 = .finite ⟨false, ⟨1023 * 2 ^ 52 + 2 ^ 51, by decide⟩⟩ := by
    decide +kernel
  unfold isJitter at h
  rw [hlow, hhigh] at h
  cases jitter with
  | infinite negative => cases negative <;> exact absurd h (by decide)
  | nan => exact absurd h (by decide)
  | finite x =>
      simp only [Binary64.lt, Bool.and_eq_true, Bool.not_eq_true', decide_eq_false_iff_not,
        decide_eq_true_eq, Int.not_lt] at h
      obtain ⟨hge, hlt⟩ := h
      have hpos := Binary64.one_pos
      have hhalf := two_mul_leastJitter
      have hleast : leastJitter.signedUnits = leastJitter.units := rfl
      have hnegative : x.negative = false := by
        by_contra hne
        have hsigned : x.signedUnits = -(x.units : Int) := by
          simp [Finite.signedUnits, hne]
        omega
      have hsigned : x.signedUnits = x.units := by simp [Finite.signedUnits, hnegative]
      refine ⟨x, rfl, hnegative, by omega, ?_⟩
      apply unitsOfCode_mono
      by_contra hcode
      have hle : unitsOfCode (1023 * 2 ^ 52 + 2 ^ 51) ≤ x.units := by
        apply unitsOfCode_mono
        have hgreatest : (greatestJitter.code : Nat) = 1023 * 2 ^ 52 + 2 ^ 51 - 1 := rfl
        omega
      rw [hsigned] at hlt
      exact absurd (Int.ofNat_lt.mp hlt) (Nat.not_lt.mpr hle)

/-! ## One delay -/

namespace Duration

theorem nanos_min (d e : Duration) : (d.min e).nanos = Min.min d.nanos e.nanos := by
  unfold Duration.min
  split <;> omega

theorem nanos_double {d : Duration} (h : 2 * d.nanos < UInt64.size * 1_000_000_000) :
    d.double.nanos = 2 * d.nanos := by
  unfold double
  rw [dif_pos h]

end Duration

namespace Backoff

/-- The shortest delay, in nanoseconds, that some jitter factor stretches to what is no duration. -/
def limit : Nat := 12_297_829_382_473_034_752 * 1_000_000_000

theorem stretched_lt {d : Duration} {f : Nat} (hd : d.nanos < limit)
    (hf : f ≤ greatestJitter.units) : d.stretched f < UInt64.size * 1_000_000_000 := by
  have hlongest : (⟨limit - 1, by decide⟩ : Duration).stretched greatestJitter.units <
      UInt64.size * 1_000_000_000 := by decide +kernel
  exact (Duration.stretched_mono (Nat.le_pred_of_lt hd) hf).trans_lt hlongest

variable {b : Backoff} {n : UInt32} {base cap : Duration} {jitter : Binary64}

/-- The delay that is stretched next. -/
def pending (b : Backoff) : Duration :=
  match b.policy with
  | .fixed _ delay => delay
  | .exponential _ _ _ => b.current

/-- What comes of a delay once it is stretched: the delay that is waited for, and the schedule after
it. -/
def settle (b : Backoff) (stretched : Duration) : Duration × Backoff :=
  match b.policy with
  | .fixed _ _ => (stretched, b)
  | .exponential _ _ cap => (stretched.min cap, { b with current := (stretched.min cap).double })

theorem next_eq (b : Backoff) (jitter : Binary64) :
    b.next jitter = (b.pending.scale jitter).map b.settle := by
  cases hpolicy : b.policy with
  | fixed n delay =>
      simp only [next, pending, hpolicy]
      cases delay.scale jitter with
      | error failure => rfl
      | ok e => simp [Except.map, settle, hpolicy, bind, Except.bind, pure, Except.pure]
  | exponential n base cap =>
      simp only [next, pending, hpolicy]
      cases b.current.scale jitter with
      | error failure => rfl
      | ok e => simp [Except.map, settle, hpolicy, bind, Except.bind, pure, Except.pure]

theorem pending_fixed {delay : Duration} (hb : b.policy = .fixed n delay) : b.pending = delay := by
  unfold pending
  rw [hb]

theorem pending_exponential (hb : b.policy = .exponential n base cap) : b.pending = b.current := by
  unfold pending
  rw [hb]

theorem settle_fixed {delay e : Duration} (hb : b.policy = .fixed n delay) :
    b.settle e = (e, b) := by
  unfold settle
  rw [hb]

theorem settle_exponential {e : Duration} (hb : b.policy = .exponential n base cap) :
    b.settle e = (e.min cap, { b with current := (e.min cap).double }) := by
  unfold settle
  rw [hb]

theorem next_of_lt {x : Finite} (hx : x.negative = false) (hle : x.units ≤ greatestJitter.units)
    (hshort : b.pending.nanos < limit) :
    ∃ e, e.nanos = b.pending.stretched x.units ∧ b.next (.finite x) = .ok (b.settle e) := by
  refine ⟨⟨_, stretched_lt hshort hle⟩, rfl, ?_⟩
  rw [next_eq, Duration.scale_eq hx (hle.trans greatestJitter_le), dif_pos]
  rfl

theorem next_exponential (hb : b.policy = .exponential n base cap) {x : Finite}
    (hx : x.negative = false) (hle : x.units ≤ greatestJitter.units)
    (hcurrent : b.current.nanos < limit) :
    ∃ d, b.next (.finite x) = .ok (d, { b with current := d.double }) ∧
      d.nanos = min (b.current.stretched x.units) cap.nanos := by
  rw [← pending_exponential hb] at hcurrent
  obtain ⟨e, he, hnext⟩ := next_of_lt hx hle hcurrent
  rw [settle_exponential hb] at hnext
  refine ⟨e.min cap, hnext, ?_⟩
  rw [Duration.nanos_min, he, pending_exponential hb]

/-! ## Many delays -/

/-- What each call of a schedule gives.  A call that crashes leaves the schedule as it was. -/
def answers (b : Backoff) : List Binary64 → List (Except Duration.Failure Duration)
  | [] => []
  | jitter :: rest =>
    match b.next jitter with
    | .ok (d, b') => .ok d :: b'.answers rest
    | .error failure => .error failure :: b.answers rest

theorem answers_of_delays {jitters : List Binary64} {ds : List Duration}
    (h : b.delays jitters = .ok ds) : b.answers jitters = ds.map .ok := by
  induction jitters generalizing b ds with
  | nil =>
      cases h
      rfl
  | cons jitter rest ih =>
      obtain ⟨d, b', ds', hnext, hrest, rfl⟩ := delays_cons h
      rw [answers, hnext, List.map_cons]
      dsimp only
      rw [ih hrest]

theorem exists_delays {P : Backoff → Prop}
    (hstep : ∀ b jitter, P b → isJitter jitter = true →
      ∃ d b', b.next jitter = .ok (d, b') ∧ P b')
    {jitters : List Binary64} (hjitters : ∀ jitter ∈ jitters, isJitter jitter = true)
    (hb : P b) : ∃ ds, b.delays jitters = .ok ds := by
  induction jitters generalizing b with
  | nil => exact ⟨[], rfl⟩
  | cons jitter rest ih =>
      obtain ⟨hjitter, hlater⟩ := List.forall_mem_cons.mp hjitters
      obtain ⟨d, b', hnext, hb'⟩ := hstep b jitter hb hjitter
      obtain ⟨ds, hds⟩ := ih hlater hb'
      refine ⟨d :: ds, ?_⟩
      rw [delays, hnext]
      simp only [hds, bind, Except.bind, pure, Except.pure]

/-! ## Delays below the cap -/

theorem capped_of_next {d : Duration} {b' : Backoff} (hb : b.policy = .exponential n base cap)
    (h : b.next jitter = .ok (d, b')) : d.nanos ≤ cap.nanos ∧ b'.policy = b.policy := by
  rw [next_eq] at h
  cases hscale : b.pending.scale jitter with
  | error failure =>
      rw [hscale] at h
      cases h
  | ok e =>
      rw [hscale, Except.map, settle_exponential hb] at h
      cases h
      rw [Duration.nanos_min]
      exact ⟨Nat.min_le_right _ _, rfl⟩

theorem capped_of_answers {jitters : List Binary64} {d : Duration}
    (hb : b.policy = .exponential n base cap) (h : .ok d ∈ b.answers jitters) :
    d.nanos ≤ cap.nanos := by
  induction jitters generalizing b with
  | nil => cases h
  | cons jitter rest ih =>
      rw [answers] at h
      cases hnext : b.next jitter with
      | error failure =>
          simp only [hnext, List.mem_cons, reduceCtorEq, false_or] at h
          exact ih hb h
      | ok next =>
          obtain ⟨e, b'⟩ := next
          obtain ⟨hcapped, hpolicy⟩ := capped_of_next hb hnext
          simp only [hnext, List.mem_cons, Except.ok.injEq] at h
          rcases h with rfl | hlater
          · exact hcapped
          · exact ih (hpolicy.trans hb) hlater

/-- Delays that never decrease and stay at the cap. -/
structure Climbs (cap : Duration) (ds : List Duration) : Prop where
  capped : ∀ d ∈ ds, d.nanos ≤ cap.nanos
  grows : ds.Pairwise fun d e ↦ d.nanos ≤ e.nanos
  stays : ds.Pairwise fun d e ↦ d = cap → e = cap

theorem Climbs.of_grows {ds : List Duration} (hcapped : ∀ d ∈ ds, d.nanos ≤ cap.nanos)
    (hgrows : ds.Pairwise fun d e ↦ d.nanos ≤ e.nanos) : Climbs cap ds := by
  refine ⟨hcapped, hgrows, hgrows.imp_of_mem ?_⟩
  rintro d e - he hle rfl
  exact Duration.ext_nanos (Nat.le_antisymm (hcapped e he) hle)

theorem delays_cons_exponential {rest : List Binary64} {ds : List Duration}
    (hb : b.policy = .exponential n base cap) (hjitter : isJitter jitter = true)
    (hcurrent : b.current.nanos < limit) (h : b.delays (jitter :: rest) = .ok ds) :
    ∃ d ds', ds = d :: ds' ∧ delays { b with current := d.double } rest = .ok ds' ∧
      min (b.current.stretched leastJitter.units) cap.nanos ≤ d.nanos ∧ d.nanos ≤ cap.nanos := by
  obtain ⟨d, b', ds', hnext, hrest, rfl⟩ := delays_cons h
  obtain ⟨x, rfl, hx, hleast, hgreatest⟩ := exists_of_isJitter hjitter
  obtain ⟨d', hnext', hd⟩ := next_exponential hb hx hgreatest hcurrent
  rw [hnext] at hnext'
  cases hnext'
  have hmore : b.current.stretched leastJitter.units ≤ b.current.stretched x.units :=
    Duration.stretched_mono (Nat.le_refl _) hleast
  exact ⟨d, ds', rfl, hrest, by omega, by omega⟩

theorem grows_of_delays {floor : Duration} {jitters : List Binary64} {ds : List Duration}
    (hb : b.policy = .exponential n base cap) (hcap : cap.nanos ≤ 2 ^ 23 * 1_000_000_000)
    (hjitters : ∀ jitter ∈ jitters, isJitter jitter = true)
    (hcurrent : b.current = floor.double) (hfloor : floor.nanos ≤ cap.nanos)
    (h : b.delays jitters = .ok ds) :
    (∀ d ∈ ds, floor.nanos ≤ d.nanos ∧ d.nanos ≤ cap.nanos) ∧
      ds.Pairwise fun d e ↦ d.nanos ≤ e.nanos := by
  induction jitters generalizing b floor ds with
  | nil =>
      cases h
      exact ⟨nofun, .nil⟩
  | cons jitter rest ih =>
      obtain ⟨hjitter, hothers⟩ := List.forall_mem_cons.mp hjitters
      have hdouble : b.current.nanos = 2 * floor.nanos := by
        rw [hcurrent]
        exact Duration.nanos_double (by simp only [UInt64.size]; omega)
      have hshort : b.current.nanos < limit := by
        unfold limit
        omega
      obtain ⟨d, ds', rfl, hrest, hleast, hcapped⟩ :=
        delays_cons_exponential hb hjitter hshort h
      -- Twice the delay before is stretched, by one half at least.
      have hhalf : floor.nanos ≤ b.current.stretched leastJitter.units :=
        Duration.le_stretched_half hdouble (by omega) two_mul_leastJitter
      have hfirst : floor.nanos ≤ d.nanos := by omega
      obtain ⟨hlater, hgrows⟩ :=
        ih (b := { b with current := d.double }) hb hothers rfl hcapped hrest
      constructor
      · refine List.forall_mem_cons.mpr ⟨⟨hfirst, hcapped⟩, fun e he ↦ ?_⟩
        exact ⟨hfirst.trans (hlater e he).1, (hlater e he).2⟩
      · exact List.pairwise_cons.mpr ⟨fun e he ↦ (hlater e he).1, hgrows⟩

theorem exists_delays_exponential {jitters : List Binary64}
    (hb : b.policy = .exponential n base cap) (hcap : 2 * cap.nanos < limit)
    (hcurrent : b.current.nanos < limit)
    (hjitters : ∀ jitter ∈ jitters, isJitter jitter = true) :
    ∃ ds, b.delays jitters = .ok ds := by
  let P (b : Backoff) : Prop := b.policy = .exponential n base cap ∧ b.current.nanos < limit
  apply exists_delays (P := P) _ hjitters ⟨hb, hcurrent⟩
  intro b jitter hP hjitter
  obtain ⟨x, rfl, hx, -, hgreatest⟩ := exists_of_isJitter hjitter
  obtain ⟨d, hnext, hd⟩ := next_exponential hP.1 hx hgreatest hP.2
  refine ⟨d, _, hnext, hP.1, ?_⟩
  have hdouble : d.double.nanos = 2 * d.nanos := by
    apply Duration.nanos_double
    unfold limit at hcap
    simp only [UInt64.size]
    omega
  dsimp only
  omega

end Backoff

namespace RetryPolicy

inductive Built : RetryPolicy → Prop
  | capped (maxAttempts : UInt32) (baseDelay maxDelay : Duration) :
      Built (.capped maxAttempts baseDelay maxDelay)
  | ofConfig {config : RetryConfig} {policy : RetryPolicy} :
      RetryPolicy.ofConfig config = .ok policy → Built policy

theorem delayOf_ok {field : String} {value : Binary64} {d : Duration}
    (h : delayOf field value = .ok d) : Duration.ofSeconds value = .ok d := by
  unfold delayOf at h
  cases hvalue : Duration.ofSeconds value with
  | error failure => simp [hvalue, Except.mapError] at h
  | ok e => simpa [hvalue, Except.mapError] using h

theorem exists_of_ofConfig {config : RetryConfig} {policy : RetryPolicy}
    (h : RetryPolicy.ofConfig config = .ok policy) :
    (∃ n delay d, config = .fixed n delay ∧ Duration.ofSeconds delay = .ok d ∧
      policy = .fixed n d) ∨
    ∃ n baseDelay maxDelay base cap, config = .exponential n baseDelay maxDelay ∧
      Duration.ofSeconds baseDelay = .ok base ∧ Duration.ofSeconds maxDelay = .ok cap ∧
      policy = .capped n base cap := by
  cases config with
  | fixed n delay =>
      left
      cases hdelay : delayOf "delay" delay with
      | error error =>
          simp only [ofConfig, hdelay] at h
          cases h
      | ok d =>
          simp only [ofConfig, hdelay] at h
          cases h
          exact ⟨n, delay, d, rfl, delayOf_ok hdelay, rfl⟩
  | exponential n baseDelay maxDelay =>
      right
      cases horder : maxDelay.lt baseDelay with
      | true =>
          simp only [ofConfig, horder] at h
          cases h
      | false =>
          cases hbase : delayOf "base_delay" baseDelay with
          | error error =>
              simp only [ofConfig, horder, hbase] at h
              cases h
          | ok base =>
              cases hcap : delayOf "max_delay" maxDelay with
              | error error =>
                  simp only [ofConfig, horder, hbase, hcap] at h
                  cases h
              | ok cap =>
                  simp only [ofConfig, horder, hbase, hcap] at h
                  cases h
                  exact ⟨n, baseDelay, maxDelay, base, cap, rfl, delayOf_ok hbase,
                    delayOf_ok hcap, rfl⟩

theorem Built.base_le {n : UInt32} {base cap : Duration} (h : Built (.exponential n base cap)) :
    base.nanos ≤ cap.nanos := by
  have hmin : ∃ base', base = Duration.min base' cap := by
    generalize hpolicy : RetryPolicy.exponential n base cap = policy at h
    cases h with
    | capped m base' cap' =>
        cases hpolicy
        exact ⟨base', rfl⟩
    | ofConfig hconfig =>
        obtain ⟨m, delay, d, -, -, rfl⟩ | ⟨m, baseDelay, maxDelay, base', cap', -, -, -, rfl⟩ :=
          exists_of_ofConfig hconfig
        · cases hpolicy
        · cases hpolicy
          exact ⟨base', rfl⟩
  obtain ⟨base', rfl⟩ := hmin
  rw [Duration.nanos_min]
  exact Nat.min_le_right _ _

end RetryPolicy

namespace Backoff

theorem climbs_of_delays {n : UInt32} {base cap : Duration} {jitters : List Binary64}
    {ds : List Duration} (hbase : base.nanos ≤ cap.nanos)
    (hcap : cap.nanos ≤ 2 ^ 23 * 1_000_000_000)
    (hjitters : ∀ jitter ∈ jitters, isJitter jitter = true)
    (h : (start (.exponential n base cap)).delays jitters = .ok ds) : Climbs cap ds := by
  cases jitters with
  | nil =>
      cases h
      exact ⟨nofun, .nil, .nil⟩
  | cons jitter rest =>
      obtain ⟨hjitter, hothers⟩ := List.forall_mem_cons.mp hjitters
      have hshort : (start (.exponential n base cap)).current.nanos < limit := by
        unfold limit start
        dsimp only
        omega
      obtain ⟨d, ds', rfl, hrest, -, hcapped⟩ := delays_cons_exponential rfl hjitter hshort h
      obtain ⟨hlater, hgrows⟩ := grows_of_delays
        (b := { start (.exponential n base cap) with current := d.double }) rfl hcap hothers rfl
        hcapped hrest
      apply Climbs.of_grows
      · exact List.forall_mem_cons.mpr ⟨hcapped, fun e he ↦ (hlater e he).2⟩
      · exact List.pairwise_cons.mpr ⟨fun e he ↦ (hlater e he).1, hgrows⟩

/-- No delay of an exponential schedule exceeds the cap, whatever the factors.  If the cap is at most
`2 ^ 23` seconds and the factors are jitter, then every call gives a delay, and the delays climb to
the cap. -/
theorem climbs_to_cap (n : UInt32) (base cap : Duration) (jitters : List Binary64) :
    (∀ d, .ok d ∈ (start (.exponential n base cap)).answers jitters → d.nanos ≤ cap.nanos) ∧
      (RetryPolicy.Built (.exponential n base cap) → cap.nanos ≤ 2 ^ 23 * 1_000_000_000 →
        (∀ jitter ∈ jitters, isJitter jitter = true) →
        ∃ ds, (start (.exponential n base cap)).answers jitters = ds.map .ok ∧ Climbs cap ds) := by
  constructor
  · intro d hd
    exact capped_of_answers rfl hd
  · intro hbuilt hcap hjitters
    have hbase := hbuilt.base_le
    have hshort : 2 * cap.nanos < limit := by
      unfold limit
      omega
    obtain ⟨ds, hds⟩ := exists_delays_exponential
      (b := start (.exponential n base cap)) rfl hshort (by unfold start; dsimp only; omega) hjitters
    exact ⟨ds, answers_of_delays hds, climbs_of_delays hbase hcap hjitters hds⟩

theorem climbs_to_cap_longest :
    ∃ ds, (start (.capped 3 (.ofMillis 1) (.ofMillis 8_388_608_000))).answers
        [.finite leastJitter, .ofRatio false 7 5, .ofNat 1] = ds.map .ok ∧
      Climbs (.ofMillis 8_388_608_000) ds :=
  (climbs_to_cap 3 _ _ _).2 (.capped 3 (.ofMillis 1) (.ofMillis 8_388_608_000)) (by decide)
    (by decide +kernel)

end Backoff

end RemoteObjects
