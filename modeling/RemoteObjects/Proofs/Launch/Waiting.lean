import RemoteObjects.Launch.Readiness

/-!
# How the wait for a server ends

The wait ends in the first round that finds the process ended, or reaches it, or finds the time up.
There is such a round, since every pause takes time.
-/

namespace RemoteObjects.Launch

variable {timeout : Duration} {rounds : Nat → Round} {verdict : Verdict}

/-! ## One round -/

namespace Round

variable {r : Round} {elapsed : Nat}

/-- What a round meets that ends the wait with a verdict. -/
def Gives (r : Round) (timeout : Duration) (elapsed : Nat) : Verdict → Prop
  | .ready => r.seen = .ok none ∧ r.accepts = true
  | .exited status => r.seen = .ok (some status)
  | .unseen reason => r.seen = .error reason
  | .timeout => r.seen = .ok none ∧ r.accepts = false ∧ timeout.nanos ≤ elapsed + r.took

theorem verdict?_eq_some_iff :
    r.verdict? timeout elapsed = some verdict ↔ r.Gives timeout elapsed verdict := by
  obtain ⟨reason | _ | status, accepts, took, overslept⟩ := r
  · cases verdict <;> simp [verdict?, Gives]
  · cases accepts <;> cases verdict <;> simp [verdict?, Gives]
  · cases verdict <;> simp [verdict?, Gives]

theorem verdict?_eq_none_iff :
    r.verdict? timeout elapsed = none ↔
      r.seen = .ok none ∧ r.accepts = false ∧ elapsed + r.took < timeout.nanos := by
  obtain ⟨reason | _ | status, accepts, took, overslept⟩ := r
  · simp [verdict?]
  · cases accepts <;> simp [verdict?]
  · simp [verdict?]

end Round

/-! ## All rounds -/

/-- The nanoseconds that have passed when a round starts. -/
def startOf (rounds : Nat → Round) : Nat → Nat
  | 0 => 0
  | k + 1 => startOf rounds k + (rounds k).took + pollInterval.nanos + (rounds k).overslept

theorem mul_le_startOf (rounds : Nat → Round) (k : Nat) :
    k * pollInterval.nanos ≤ startOf rounds k := by
  induction k with
  | zero => omega
  | succ k ih =>
      rw [startOf, Nat.add_mul, Nat.one_mul]
      omega

/-- No round before the `k`-th one ends the wait. -/
def Pending (timeout : Duration) (rounds : Nat → Round) (k : Nat) : Prop :=
  ∀ i < k, (rounds i).seen = .ok none ∧ (rounds i).accepts = false ∧
    startOf rounds i + (rounds i).took < timeout.nanos

theorem exists_of_awaitFrom (timeout : Duration) (rounds : Nat → Round) {elapsed n : Nat}
    (hstart : elapsed = startOf rounds n) (hpending : Pending timeout rounds n) :
    ∃ k, Pending timeout rounds k ∧
      (rounds k).Gives timeout (startOf rounds k) (awaitFrom timeout rounds elapsed n).1 ∧
      (awaitFrom timeout rounds elapsed n).2 = k + 1 := by
  fun_induction awaitFrom timeout rounds elapsed n with
  | case1 elapsed n verdict hverdict =>
      subst hstart
      exact ⟨n, hpending, Round.verdict?_eq_some_iff.mp hverdict, rfl⟩
  | case2 elapsed n hnone ih =>
      subst hstart
      apply ih rfl
      intro i hi
      rcases Nat.lt_succ_iff_lt_or_eq.mp hi with hlt | rfl
      · exact hpending i hlt
      · exact Round.verdict?_eq_none_iff.mp hnone

theorem exists_of_awaitReady (timeout : Duration) (rounds : Nat → Round) :
    ∃ k, Pending timeout rounds k ∧
      (rounds k).Gives timeout (startOf rounds k) (awaitReady timeout rounds).1 ∧
      (awaitReady timeout rounds).2 = k + 1 :=
  exists_of_awaitFrom timeout rounds rfl nofun

theorem Round.Gives.not_pending {r : Round} {elapsed : Nat} (h : r.Gives timeout elapsed verdict) :
    ¬(r.seen = .ok none ∧ r.accepts = false ∧ elapsed + r.took < timeout.nanos) := by
  intro hpending
  have hsome := verdict?_eq_some_iff.mpr h
  rw [verdict?_eq_none_iff.mpr hpending] at hsome
  cases hsome

theorem awaitReady_eq {k : Nat} (hpending : Pending timeout rounds k)
    (h : (rounds k).Gives timeout (startOf rounds k) verdict) :
    awaitReady timeout rounds = (verdict, k + 1) := by
  obtain ⟨k', hpending', h', hcount⟩ := exists_of_awaitReady timeout rounds
  rcases Nat.lt_trichotomy k k' with hlt | rfl | hgt
  · exact absurd (hpending' k hlt) h.not_pending
  · have hverdict := Round.verdict?_eq_some_iff.mpr h
    rw [Round.verdict?_eq_some_iff.mpr h', Option.some.injEq] at hverdict
    exact Prod.ext hverdict hcount
  · exact absurd (hpending k' hgt) h'.not_pending

theorem awaitReady_fst_eq_iff :
    (awaitReady timeout rounds).1 = verdict ↔
      ∃ k, Pending timeout rounds k ∧ (rounds k).Gives timeout (startOf rounds k) verdict := by
  constructor
  · rintro rfl
    obtain ⟨k, hpending, h, -⟩ := exists_of_awaitReady timeout rounds
    exact ⟨k, hpending, h⟩
  · rintro ⟨k, hpending, h⟩
    rw [awaitReady_eq hpending h]

theorem awaitReady_snd_le (timeout : Duration) (rounds : Nat → Round) :
    (awaitReady timeout rounds).2 ≤
      (timeout.nanos + pollInterval.nanos - 1) / pollInterval.nanos + 1 := by
  obtain ⟨k, hpending, -, hcount⟩ := exists_of_awaitReady timeout rounds
  rw [hcount]
  cases k with
  | zero => exact Nat.le_add_left _ _
  | succ j =>
      have hstart := mul_le_startOf rounds j
      have hlast := (hpending j (Nat.lt_succ_self j)).2.2
      have hpause : pollInterval.nanos = 50_000_000 := rfl
      rw [hpause] at hstart ⊢
      omega

/-! ## What the wait answers -/

theorem millis_ofMillis (t : UInt64) : UInt64.ofNat (Duration.ofMillis t).millis = t := by
  have hmillis : (Duration.ofMillis t).millis = t.toNat :=
    Nat.mul_div_cancel t.toNat (by decide)
  rw [hmillis]
  exact UInt64.ofNat_toNat

namespace Verdict

variable {port : UInt16}

theorem error?_eq_none_iff : verdict.error? port timeout = none ↔ verdict = .ready := by
  cases verdict <;> simp [error?]

theorem error?_eq_exited_iff {text : String} :
    verdict.error? port timeout = some (.exited text) ↔
      ∃ status, verdict = .exited status ∧ status.message = text := by
  cases verdict <;> simp [error?]

theorem error?_eq_spawn_iff {reason : String} :
    verdict.error? port timeout = some (.spawn reason) ↔ verdict = .unseen reason := by
  cases verdict <;> simp [error?]

theorem error?_eq_timeout_iff {q : UInt16} {waitedMs : UInt64} :
    verdict.error? port timeout = some (.startupTimeout q waitedMs) ↔
      q = port ∧ waitedMs = .ofNat timeout.millis ∧ verdict = .timeout := by
  cases verdict <;> simp [error?, eq_comm]

end Verdict

/-- What there is to say of a wait of `t` milliseconds, its failure if it failed, and the number of
its rounds. -/
structure Awaited (t : UInt64) (rounds : Nat → Round) (port : UInt16) (failure : Option Error)
    (count : Nat) : Prop where
  count_le : count ≤ (t.toNat + 49) / 50 + 1
  /-- The last round is the first one after which the wait does not go on. -/
  lasts : ∃ k, count = k + 1 ∧ Pending (.ofMillis t) rounds k ∧
    ¬Pending (.ofMillis t) rounds (k + 1)
  ready_iff : failure = none ↔
    ∃ k, Pending (.ofMillis t) rounds k ∧ (rounds k).seen = .ok none ∧ (rounds k).accepts = true
  /-- That the process has ended counts more than a connection in the same round. -/
  exited_iff : ∀ text, failure = some (.exited text) ↔
    ∃ k status, Pending (.ofMillis t) rounds k ∧ (rounds k).seen = .ok (some status) ∧
      status.message = text
  unseen_iff : ∀ reason, failure = some (.spawn reason) ↔
    ∃ k, Pending (.ofMillis t) rounds k ∧ (rounds k).seen = .error reason
  timeout_iff : ∀ q waitedMs, failure = some (.startupTimeout q waitedMs) ↔
    q = port ∧ waitedMs = t ∧
      ∃ k, count = k + 1 ∧ Pending (.ofMillis t) rounds k ∧ (rounds k).seen = .ok none ∧
        (rounds k).accepts = false ∧
        t.toNat * 1_000_000 ≤ startOf rounds k + (rounds k).took

theorem awaited (t : UInt64) (rounds : Nat → Round) (port : UInt16) :
    Awaited t rounds port ((awaitReady (.ofMillis t) rounds).1.error? port (.ofMillis t))
      (awaitReady (.ofMillis t) rounds).2 where
  count_le := by
    have hle := awaitReady_snd_le (.ofMillis t) rounds
    have hpause : pollInterval.nanos = 50_000_000 := rfl
    have htime : (Duration.ofMillis t).nanos = t.toNat * 1_000_000 := rfl
    rw [hpause, htime] at hle
    omega
  lasts := by
    obtain ⟨k, hpending, h, hcount⟩ := exists_of_awaitReady (.ofMillis t) rounds
    exact ⟨k, hcount, hpending, fun hlater ↦ h.not_pending (hlater k (Nat.lt_succ_self k))⟩
  ready_iff := by
    rw [Verdict.error?_eq_none_iff, awaitReady_fst_eq_iff]
    rfl
  exited_iff text := by
    rw [Verdict.error?_eq_exited_iff]
    constructor
    · rintro ⟨status, hverdict, htext⟩
      obtain ⟨k, hpending, hseen⟩ := awaitReady_fst_eq_iff.mp hverdict
      exact ⟨k, status, hpending, hseen, htext⟩
    · rintro ⟨k, status, hpending, hseen, htext⟩
      exact ⟨status, awaitReady_fst_eq_iff.mpr ⟨k, hpending, hseen⟩, htext⟩
  unseen_iff reason := by
    rw [Verdict.error?_eq_spawn_iff, awaitReady_fst_eq_iff]
    rfl
  timeout_iff q waitedMs := by
    rw [Verdict.error?_eq_timeout_iff, millis_ofMillis]
    constructor
    · rintro ⟨hport, htime, hverdict⟩
      obtain ⟨k, hpending, h, hcount⟩ := exists_of_awaitReady (.ofMillis t) rounds
      rw [hverdict] at h
      exact ⟨hport, htime, k, hcount, hpending, h⟩
    · rintro ⟨hport, htime, k, -, hpending, h⟩
      have hwait : awaitReady (.ofMillis t) rounds = (.timeout, k + 1) := awaitReady_eq hpending h
      exact ⟨hport, htime, congrArg Prod.fst hwait⟩

end RemoteObjects.Launch
