import RemoteObjects.Proofs.Binary64.Value
import RemoteObjects.Proofs.Retry.Schedule

/-!
# Which configurations become policies

A delay is a number of seconds that is not negative and less than `2 ^ 64`; the negative zero is
zero.  A configuration is accepted just if its delays are such numbers and stand in the right
order, and the order is looked at before anything else.  Rounding to nanoseconds keeps the order,
so no delay of an accepted configuration is lowered.
-/

namespace RemoteObjects

open Binary64

namespace Binary64

/-- Whether a number of seconds can be waited for. -/
def IsDelay (x : Binary64) : Prop := ∃ q : ℚ, x.number? = some (q : WithTop ℚ) ∧ 0 ≤ q ∧ q < 2 ^ 64

/-- Whether a duration has this number of seconds, to the nearest nanosecond. -/
def Lasts (x : Binary64) (d : Duration) : Prop :=
  ∃ q : ℚ, x.number? = some (q : WithTop ℚ) ∧ 0 ≤ q ∧ q < 2 ^ 64 ∧
    Nearest (q * 1_000_000_000) d.nanos

end Binary64

/-! ## Seconds -/

namespace Duration

variable {x : Binary64}

/-- The last number below `2 ^ 64` is `2 ^ 11` less. -/
theorem units_le_of_lt {x : Finite} (h : x.units < 2 ^ 64 * one) :
    x.units ≤ (2 ^ 64 - 2 ^ 11) * one := by
  have hbits := pointBits_eq
  have hnext : unitsOfCode ((64 + 1022) * 2 ^ 52 + 2 ^ 52) = 2 ^ 64 * one :=
    unitsOfCode_two_pow_mul_one rfl 64
  have hcode : (x.code : ℕ) < (64 + 1022) * 2 ^ 52 + 2 ^ 52 := by
    by_contra hge
    have hle := unitsOfCode_mono (Nat.le_of_not_lt hge)
    rw [hnext] at hle
    exact absurd h (Nat.not_lt.mpr hle)
  have hlast : unitsOfCode ((11 + pointBits) * 2 ^ 52 + (2 ^ 53 - 1)) =
      (2 ^ 64 - 2 ^ 11) * one := by
    rw [unitsOfCode_binade (by decide) (by decide), Nat.pow_add, ← one]
    ring
  rw [← hlast]
  apply unitsOfCode_mono
  omega

theorem nanosOf_eq (x : Finite) : nanosOf x = roundEven (x.units * 1_000_000_000) one := by
  rw [nanosOf, shiftLeft_one, Nat.one_mul]

theorem nanosOf_lt_iff {x : Finite} :
    nanosOf x < UInt64.size * 1_000_000_000 ↔ x.units < 2 ^ 64 * one := by
  have hsize : UInt64.size = 2 ^ 64 := rfl
  rw [nanosOf_eq, hsize]
  constructor
  · intro hlt
    by_contra hge
    have hle : 2 ^ 64 * 1_000_000_000 * one ≤ x.units * 1_000_000_000 := by omega
    exact absurd hlt (Nat.not_lt.mpr (le_roundEven Binary64.one_pos hle))
  · intro hlt
    have hlast := units_le_of_lt hlt
    have hround : roundEven (x.units * 1_000_000_000) one ≤ (2 ^ 64 - 2 ^ 11) * 1_000_000_000 := by
      apply roundEven_le Binary64.one_pos
      omega
    omega

theorem value_nonneg_iff {x : Finite} : 0 ≤ x.value ↔ ¬(x.negative = true ∧ x.units ≠ 0) := by
  have hsign : 0 ≤ x.value ↔ 0 ≤ x.signedUnits := by
    rw [Finite.value, le_div_iff₀ cast_one_pos, zero_mul]
    exact_mod_cast Iff.rfl
  rw [hsign, Finite.signedUnits]
  by_cases hnegative : x.negative = true
  · simp only [hnegative, if_true, true_and, not_not]
    omega
  · simp [hnegative]

theorem value_eq_of_nonneg {x : Finite} (h : 0 ≤ x.value) : x.value = x.units / one := by
  rw [value_nonneg_iff] at h
  rw [Finite.value, Finite.signedUnits]
  by_cases hnegative : x.negative = true
  · have hzero : x.units = 0 := by
      by_contra hne
      exact h ⟨hnegative, hne⟩
    simp [hzero]
  · simp [hnegative]

theorem value_lt_iff_units_lt {x : Finite} (h : 0 ≤ x.value) :
    x.value < 2 ^ 64 ↔ x.units < 2 ^ 64 * one := by
  rw [value_eq_of_nonneg h, div_lt_iff₀ cast_one_pos]
  exact_mod_cast Iff.rfl

theorem nearest_nanosOf {x : Finite} (h : 0 ≤ x.value) :
    Nearest (x.value * 1_000_000_000) (nanosOf x) := by
  have hexact : x.value * 1_000_000_000 = ((x.units * 1_000_000_000 : ℕ) : ℚ) / one := by
    rw [value_eq_of_nonneg h]
    push_cast
    ring
  rw [hexact, nanosOf_eq]
  exact nearest_roundEven Binary64.one_pos

theorem ofSeconds_finite {x : Finite} : ofSeconds (.finite x) =
    if 0 ≤ x.value then
      if h : nanosOf x < UInt64.size * 1_000_000_000 then .ok ⟨nanosOf x, h⟩ else .error .unbounded
    else .error .negative := by
  unfold ofSeconds
  by_cases hvalue : 0 ≤ x.value
  · simp only [if_neg (value_nonneg_iff.mp hvalue), if_pos hvalue]
  · simp only [if_pos (not_not.mp (mt value_nonneg_iff.mpr hvalue)), if_neg hvalue]

theorem number?_eq_coe_iff {x : Binary64} {q : ℚ} :
    x.number? = some (q : WithTop ℚ) ↔ ∃ y : Finite, x = .finite y ∧ y.value = q := by
  have htop : (⊤ : WithBot (WithTop ℚ)) ≠ ((q : WithTop ℚ) : WithBot (WithTop ℚ)) :=
    (WithBot.coe_lt_coe.mpr (WithTop.coe_lt_top q)).ne'
  rcases x with x | (_ | _) | _ <;> simp [number?, htop]

theorem isDelay_finite_iff {x : Finite} :
    (Binary64.finite x).IsDelay ↔ 0 ≤ x.value ∧ nanosOf x < UInt64.size * 1_000_000_000 := by
  rw [nanosOf_lt_iff]
  constructor
  · rintro ⟨q, hq, hnonneg, hlt⟩
    obtain ⟨y, hy, rfl⟩ := number?_eq_coe_iff.mp hq
    cases hy
    exact ⟨hnonneg, (value_lt_iff_units_lt hnonneg).mp hlt⟩
  · rintro ⟨hnonneg, hlt⟩
    exact ⟨x.value, rfl, hnonneg, (value_lt_iff_units_lt hnonneg).mpr hlt⟩

/-- What can be waited for is made a duration, and nothing else is. -/
theorem ofSeconds_isOk_iff : (∃ d, ofSeconds x = .ok d) ↔ x.IsDelay := by
  rcases x with x | (_ | _) | _
  · rw [isDelay_finite_iff, ofSeconds_finite]
    split
    · split <;> simp_all
    · simp_all
  all_goals
    constructor
    · rintro ⟨d, hd⟩
      cases hd
    · rintro ⟨q, hq, -⟩
      obtain ⟨y, hy, -⟩ := number?_eq_coe_iff.mp hq
      cases hy

theorem ofSeconds_eq_ok_iff {d : Duration} : ofSeconds x = .ok d ↔ x.Lasts d := by
  constructor
  · intro hd
    obtain ⟨q, hq, hnonneg, hlt⟩ := ofSeconds_isOk_iff.mp ⟨d, hd⟩
    obtain ⟨y, rfl, rfl⟩ := number?_eq_coe_iff.mp hq
    rw [ofSeconds_finite, if_pos hnonneg] at hd
    split at hd
    · cases hd
      exact ⟨y.value, hq, hnonneg, hlt, nearest_nanosOf hnonneg⟩
    · cases hd
  · rintro ⟨q, hq, hnonneg, hlt, hnearest⟩
    obtain ⟨e, he⟩ := ofSeconds_isOk_iff.mpr ⟨q, hq, hnonneg, hlt⟩
    obtain ⟨y, rfl, rfl⟩ := number?_eq_coe_iff.mp hq
    rw [he]
    rw [ofSeconds_finite, if_pos hnonneg] at he
    split at he
    · cases he
      exact congrArg Except.ok (ext_nanos ((nearest_nanosOf hnonneg).unique hnearest))
    · cases he

/-- Rounding never turns an order round. -/
theorem nanos_le_of_atMost {y : Binary64} {d e : Duration} (hd : x.Lasts d) (he : y.Lasts e)
    (h : x.AtMost y) : d.nanos ≤ e.nanos := by
  obtain ⟨p, hp, -, -, hdnearest⟩ := hd
  obtain ⟨q, hq, -, -, henearest⟩ := he
  obtain ⟨a, b, ha, hb, hle⟩ := h
  rw [hp] at ha
  rw [hq] at hb
  cases ha
  cases hb
  have hvalues : p ≤ q := by exact_mod_cast hle
  exact hdnearest.mono henearest (by linarith)

end Duration

/-! ## Configurations -/

namespace Binary64

variable {x y : Binary64}

theorem Lasts.isDelay {d : Duration} (h : x.Lasts d) : x.IsDelay := by
  obtain ⟨q, hq, hnonneg, hlt, -⟩ := h
  exact ⟨q, hq, hnonneg, hlt⟩

theorem IsDelay.exists_lasts (h : x.IsDelay) : ∃ d, x.Lasts d := by
  obtain ⟨d, hd⟩ := Duration.ofSeconds_isOk_iff.mpr h
  exact ⟨d, Duration.ofSeconds_eq_ok_iff.mp hd⟩

theorem AtMost.not_below (h : x.AtMost y) : ¬y.Below x := by
  rintro ⟨b, a, hb, ha, hlt⟩
  obtain ⟨a', b', ha', hb', hle⟩ := h
  rw [ha] at ha'
  rw [hb] at hb'
  cases ha'
  cases hb'
  exact absurd hlt (not_lt.mpr hle)

theorem IsDelay.atMost (hx : x.IsDelay) (hy : y.IsDelay) (h : ¬y.Below x) : x.AtMost y := by
  obtain ⟨p, hp, -, -⟩ := hx
  obtain ⟨q, hq, -, -⟩ := hy
  refine ⟨_, _, hp, hq, ?_⟩
  by_contra hgt
  exact h ⟨_, _, hq, hp, not_le.mp hgt⟩

end Binary64

namespace RetryPolicy

variable {n : UInt32} {field : String} {delay base cap : Binary64} {policy : RetryPolicy}
  {e : RetryConfig.Error}

theorem delayOf_of_lasts {d : Duration} (h : delay.Lasts d) : delayOf field delay = .ok d := by
  rw [delayOf, Duration.ofSeconds_eq_ok_iff.mpr h]
  rfl

theorem delayOf_of_not_isDelay (h : ¬delay.IsDelay) :
    delayOf field delay = .error (.invalidDelay field delay) := by
  rw [← Duration.ofSeconds_isOk_iff] at h
  rw [delayOf]
  cases hdelay : Duration.ofSeconds delay with
  | ok d => exact absurd ⟨d, hdelay⟩ h
  | error failure => rfl

theorem ofConfig_fixed_of_lasts {d : Duration} (h : delay.Lasts d) :
    ofConfig (.fixed n delay) = .ok (.fixed n d) := by
  rw [ofConfig, delayOf_of_lasts h]
  rfl

theorem ofConfig_exponential_of_lasts {b c : Duration} (hb : base.Lasts b) (hc : cap.Lasts c)
    (h : ¬cap.Below base) : ofConfig (.exponential n base cap) = .ok (.capped n b c) := by
  have hlt : cap.lt base = false := by
    rw [← Bool.not_eq_true, lt_eq_true_iff]
    exact h
  simp only [ofConfig, hlt, delayOf_of_lasts hb, delayOf_of_lasts hc]
  rfl

theorem ofConfig_fixed (n : UInt32) (delay : Binary64) :
    (∃ d, delay.Lasts d ∧ ofConfig (.fixed n delay) = .ok (.fixed n d)) ∨
      ¬delay.IsDelay ∧ ofConfig (.fixed n delay) = .error (.invalidDelay "delay" delay) := by
  by_cases h : delay.IsDelay
  · obtain ⟨d, hd⟩ := h.exists_lasts
    exact .inl ⟨d, hd, ofConfig_fixed_of_lasts hd⟩
  · refine .inr ⟨h, ?_⟩
    rw [ofConfig, delayOf_of_not_isDelay h]
    rfl

/-- An order that is wrong is reported whatever else is wrong; then come the delays, the first one
first. -/
theorem ofConfig_exponential (n : UInt32) (base cap : Binary64) :
    cap.Below base ∧
        ofConfig (.exponential n base cap) = .error (.delayOrder base cap) ∨
      ¬cap.Below base ∧ ¬base.IsDelay ∧
        ofConfig (.exponential n base cap) = .error (.invalidDelay "base_delay" base) ∨
      ¬cap.Below base ∧ base.IsDelay ∧ ¬cap.IsDelay ∧
        ofConfig (.exponential n base cap) = .error (.invalidDelay "max_delay" cap) ∨
      base.AtMost cap ∧ ∃ b c, base.Lasts b ∧ cap.Lasts c ∧
        ofConfig (.exponential n base cap) = .ok (.capped n b c) := by
  by_cases horder : cap.Below base
  · have hlt := lt_eq_true_iff.mpr horder
    refine .inl ⟨horder, ?_⟩
    simp only [ofConfig, hlt, if_true]
    rfl
  have hlt : cap.lt base = false := by
    rw [← Bool.not_eq_true, lt_eq_true_iff]
    exact horder
  by_cases hbase : base.IsDelay
  · obtain ⟨b, hb⟩ := hbase.exists_lasts
    by_cases hcap : cap.IsDelay
    · obtain ⟨c, hc⟩ := hcap.exists_lasts
      have hok := ofConfig_exponential_of_lasts (n := n) hb hc horder
      exact .inr (.inr (.inr ⟨hbase.atMost hcap horder, b, c, hb, hc, hok⟩))
    · refine .inr (.inr (.inl ⟨horder, hbase, hcap, ?_⟩))
      simp only [ofConfig, hlt, delayOf_of_lasts hb, delayOf_of_not_isDelay hcap]
      rfl
  · refine .inr (.inl ⟨horder, hbase, ?_⟩)
    simp only [ofConfig, hlt, delayOf_of_not_isDelay hbase]
    rfl

theorem capped_of_le {b c : Duration} (h : b.nanos ≤ c.nanos) :
    capped n b c = .exponential n b c := by
  rw [capped, Duration.min, if_neg (Nat.not_lt.mpr h)]

theorem ofConfig_fixed_ok_iff :
    ofConfig (.fixed n delay) = .ok policy ↔ ∃ d, delay.Lasts d ∧ policy = .fixed n d := by
  constructor
  · intro h
    rcases ofConfig_fixed n delay with ⟨d, hd, hok⟩ | ⟨-, herror⟩
    · rw [hok] at h
      cases h
      exact ⟨d, hd, rfl⟩
    · rw [herror] at h
      cases h
  · rintro ⟨d, hd, rfl⟩
    exact ofConfig_fixed_of_lasts hd

theorem ofConfig_fixed_error_iff :
    ofConfig (.fixed n delay) = .error e ↔
      ¬delay.IsDelay ∧ e = .invalidDelay "delay" delay := by
  rcases ofConfig_fixed n delay with ⟨d, hd, hok⟩ | ⟨hdelay, herror⟩
  · rw [hok]
    constructor
    · intro h
      cases h
    · rintro ⟨hdelay, -⟩
      exact absurd hd.isDelay hdelay
  · rw [herror]
    constructor
    · intro h
      cases h
      exact ⟨hdelay, rfl⟩
    · rintro ⟨-, rfl⟩
      rfl

theorem ofConfig_exponential_ok_iff :
    ofConfig (.exponential n base cap) = .ok policy ↔
      ∃ b c, base.Lasts b ∧ cap.Lasts c ∧ base.AtMost cap ∧ b.nanos ≤ c.nanos ∧
        policy = .exponential n b c ∧ policy = .capped n b c := by
  constructor
  · intro h
    rcases ofConfig_exponential n base cap with
      ⟨-, hresult⟩ | ⟨-, -, hresult⟩ | ⟨-, -, -, hresult⟩ | ⟨horder, b, c, hb, hc, hresult⟩
    · rw [hresult] at h
      cases h
    · rw [hresult] at h
      cases h
    · rw [hresult] at h
      cases h
    · rw [hresult] at h
      cases h
      have hle := Duration.nanos_le_of_atMost hb hc horder
      exact ⟨b, c, hb, hc, horder, hle, capped_of_le hle, rfl⟩
  · rintro ⟨b, c, hb, hc, horder, -, -, rfl⟩
    exact ofConfig_exponential_of_lasts hb hc horder.not_below

theorem ofConfig_exponential_error_iff :
    ofConfig (.exponential n base cap) = .error e ↔
      cap.Below base ∧ e = .delayOrder base cap ∨
      ¬cap.Below base ∧ ¬base.IsDelay ∧ e = .invalidDelay "base_delay" base ∨
      ¬cap.Below base ∧ base.IsDelay ∧ ¬cap.IsDelay ∧ e = .invalidDelay "max_delay" cap := by
  rcases ofConfig_exponential n base cap with
    ⟨horder, hresult⟩ | ⟨horder, hbase, hresult⟩ | ⟨horder, hbase, hcap, hresult⟩ |
      ⟨horder, b, c, hb, hc, hresult⟩
  · rw [hresult, Except.error.injEq]
    simp [horder, eq_comm]
  · rw [hresult, Except.error.injEq]
    simp [horder, hbase, eq_comm]
  · rw [hresult, Except.error.injEq]
    simp [horder, hbase, hcap, eq_comm]
  · rw [hresult]
    simp [horder.not_below, hb.isDelay, hc.isDelay]

/-- A configuration becomes a policy just if its delays can be waited for and the first one does not
exceed the cap.  Then each delay is the given number of seconds, to the nearest nanosecond, and none
is lowered.  Otherwise the order is complained about if it is wrong, and if it is not, the first
delay that cannot be waited for. -/
theorem accepted_iff_valid :
    (∀ n delay, ((∃ policy, ofConfig (.fixed n delay) = .ok policy) ↔ delay.IsDelay) ∧
      (∀ policy, ofConfig (.fixed n delay) = .ok policy ↔
        ∃ d, delay.Lasts d ∧ policy = .fixed n d) ∧
      ∀ e, ofConfig (.fixed n delay) = .error e ↔
        ¬delay.IsDelay ∧ e = .invalidDelay "delay" delay) ∧
    ∀ n base cap,
      ((∃ policy, ofConfig (.exponential n base cap) = .ok policy) ↔
        base.IsDelay ∧ cap.IsDelay ∧ base.AtMost cap) ∧
      (∀ policy, ofConfig (.exponential n base cap) = .ok policy ↔
        ∃ b c, base.Lasts b ∧ cap.Lasts c ∧ base.AtMost cap ∧ b.nanos ≤ c.nanos ∧
          policy = .exponential n b c ∧ policy = .capped n b c) ∧
      ∀ e, ofConfig (.exponential n base cap) = .error e ↔
        cap.Below base ∧ e = .delayOrder base cap ∨
        ¬cap.Below base ∧ ¬base.IsDelay ∧ e = .invalidDelay "base_delay" base ∨
        ¬cap.Below base ∧ base.IsDelay ∧ ¬cap.IsDelay ∧ e = .invalidDelay "max_delay" cap := by
  constructor
  · intro n delay
    refine ⟨?_, fun _ ↦ ofConfig_fixed_ok_iff, fun _ ↦ ofConfig_fixed_error_iff⟩
    constructor
    · rintro ⟨policy, hpolicy⟩
      obtain ⟨d, hd, -⟩ := ofConfig_fixed_ok_iff.mp hpolicy
      exact hd.isDelay
    · intro hdelay
      obtain ⟨d, hd⟩ := hdelay.exists_lasts
      exact ⟨_, ofConfig_fixed_ok_iff.mpr ⟨d, hd, rfl⟩⟩
  · intro n base cap
    refine ⟨?_, fun _ ↦ ofConfig_exponential_ok_iff, fun _ ↦ ofConfig_exponential_error_iff⟩
    constructor
    · rintro ⟨policy, hpolicy⟩
      obtain ⟨b, c, hb, hc, horder, -⟩ := ofConfig_exponential_ok_iff.mp hpolicy
      exact ⟨hb.isDelay, hc.isDelay, horder⟩
    · rintro ⟨hbase, hcap, horder⟩
      obtain ⟨b, hb⟩ := hbase.exists_lasts
      obtain ⟨c, hc⟩ := hcap.exists_lasts
      have hle := Duration.nanos_le_of_atMost hb hc horder
      exact ⟨_, ofConfig_exponential_ok_iff.mpr
        ⟨b, c, hb, hc, horder, hle, rfl, (capped_of_le hle).symm⟩⟩

example : ofConfig (.exponential 1 (.infinite false) (.finite (.zero true))) =
    .error (.delayOrder (.infinite false) (.finite (.zero true))) := by
  decide +kernel

example : ofConfig (.exponential 1 .nan (.finite (.zero true))) =
    .error (.invalidDelay "base_delay" .nan) := by
  decide +kernel

end RetryPolicy

end RemoteObjects
