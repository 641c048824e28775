import RemoteObjects.Duration
import RemoteObjects.Proofs.Binary64.Rounding

/-!
# Durations times a factor

To stretch a duration by a factor is to round four times: its whole seconds, its nanoseconds, their
sum and the product, before the nanoseconds of the product are counted.  A longer duration or a
greater factor never gives less.  As long as twice a duration has at most `2 ^ 24` seconds, half of
it is no less than the duration again.
-/

namespace RemoteObjects.Duration

open Binary64

theorem ext_nanos {d e : Duration} (h : d.nanos = e.nanos) : d = e := by
  cases d
  cases e
  cases h
  rfl

/-! ## Seconds as a magnitude -/

def wholeUnits (seconds : Nat) : Nat := nearest (seconds * one) 1

def restUnits (nanos : Nat) : Nat := nearest (nanos * one) 1_000_000_000

/-- The magnitude of the duration as a number of seconds. -/
def secondUnits (d : Duration) : Nat :=
  nearest (wholeUnits d.seconds + restUnits d.subsecond) 1

theorem nanos_eq (d : Duration) : d.nanos = d.seconds * 1_000_000_000 + d.subsecond :=
  (Nat.div_add_mod' d.nanos 1_000_000_000).symm

theorem seconds_lt (d : Duration) : d.seconds < 2 ^ 64 := by
  have hfits := d.fits
  unfold seconds
  simp only [UInt64.size] at hfits
  omega

theorem subsecond_lt (d : Duration) : d.subsecond < 1_000_000_000 :=
  Nat.mod_lt _ (by decide)

theorem wholeUnits_mono {s s' : Nat} (h : s ≤ s') : wholeUnits s ≤ wholeUnits s' :=
  nearest_mono Nat.one_pos (Nat.mul_le_mul_right one h)

theorem restUnits_mono {n n' : Nat} (h : n ≤ n') : restUnits n ≤ restUnits n' :=
  nearest_mono (by decide) (Nat.mul_le_mul_right one h)

theorem wholeUnits_of_lt {s : Nat} (h : s < 2 ^ 53) : wholeUnits s = s * one := nearest_mul_one h

theorem wholeUnits_two_pow (k : Nat) : wholeUnits (2 ^ k) = 2 ^ k * one :=
  nearest_two_pow_mul_one k

/-- The nanoseconds below a second are rounded to less than a second. -/
theorem restUnits_lt {n : Nat} (h : n < 1_000_000_000) : restUnits n < one := by
  obtain ⟨c, hc⟩ := exists_code (m := 2 ^ 53 - 1) (by decide) 1021
  have hone := one_eq (a := 53) (b := 1021) rfl
  have hpos := Binary64.one_pos
  have hle : n * one ≤ unitsOfCode c * 1_000_000_000 := by
    rw [hc]
    calc n * one ≤ 999_999_999 * one := Nat.mul_le_mul_right one (by omega)
      _ ≤ (2 ^ 53 - 1) * 2 ^ 1021 * 1_000_000_000 := by omega
  have hrest : restUnits n ≤ unitsOfCode c := nearest_le (by decide) hle
  omega

theorem wholeUnits_le_secondUnits (d : Duration) : wholeUnits d.seconds ≤ d.secondUnits :=
  nearest_le_nearest_add _ _ _

/-- From `2 ^ 53` seconds on, what lies below a second is lost. -/
theorem secondUnits_of_le (d : Duration) (h : 2 ^ 53 ≤ d.seconds) :
    d.secondUnits = wholeUnits d.seconds := by
  obtain ⟨b, m, -, hunits, hm, hlow⟩ := exists_binade (nearestCode (d.seconds * one) 1)
  have hwhole : wholeUnits d.seconds = m * 2 ^ b := hunits
  have hlarge : 2 ^ 53 * one ≤ m * 2 ^ b := by
    rw [← hwhole]
    have hle := wholeUnits_mono h
    rwa [wholeUnits_two_pow] at hle
  have hb : 1074 < b := by
    by_contra hge
    have hle : m * 2 ^ b ≤ (2 ^ 53 - 1) * one :=
      Nat.mul_le_mul (by omega) (two_pow_le_one (Nat.le_of_not_lt hge))
    have hpos := Binary64.one_pos
    omega
  have hdouble : 2 * one ≤ 2 ^ b := by
    obtain ⟨k, rfl⟩ := Nat.exists_eq_add_of_lt hb
    have hone : one ≤ 2 ^ (1074 + k) := one_le_two_pow (Nat.le_add_right _ k)
    rw [Nat.pow_succ]
    omega
  have hrest := restUnits_lt d.subsecond_lt
  rw [secondUnits, hwhole]
  exact nearest_add_of_lt (hlow.resolve_left (by omega)) hm (by omega)

theorem secondUnits_le_wholeUnits (d : Duration) :
    d.secondUnits ≤ wholeUnits (d.seconds + 1) := by
  rcases Nat.lt_or_ge d.seconds (2 ^ 53) with hlt | hge
  · apply nearest_mono Nat.one_pos
    rw [wholeUnits_of_lt hlt, Nat.add_mul, Nat.one_mul]
    exact Nat.add_le_add_left (restUnits_lt d.subsecond_lt).le _
  · rw [secondUnits_of_le d hge]
    exact wholeUnits_mono (Nat.le_succ _)

theorem secondUnits_mono {d e : Duration} (h : d.nanos ≤ e.nanos) :
    d.secondUnits ≤ e.secondUnits := by
  have hd := d.nanos_eq
  have he := e.nanos_eq
  have hseconds : d.seconds ≤ e.seconds := Nat.div_le_div_right h
  rcases hseconds.lt_or_eq with hlt | heq
  · calc d.secondUnits ≤ wholeUnits (d.seconds + 1) := secondUnits_le_wholeUnits d
      _ ≤ wholeUnits e.seconds := wholeUnits_mono hlt
      _ ≤ e.secondUnits := wholeUnits_le_secondUnits e
  · have hsubsecond : d.subsecond ≤ e.subsecond := by omega
    unfold secondUnits
    rw [heq]
    exact nearest_mono Nat.one_pos (Nat.add_le_add_left (restUnits_mono hsubsecond) _)

theorem secondUnits_le (d : Duration) : d.secondUnits ≤ 2 ^ 64 * one := by
  have hsucc : d.seconds + 1 ≤ 2 ^ 64 := d.seconds_lt
  have hle : d.secondUnits ≤ wholeUnits (2 ^ 64) :=
    (secondUnits_le_wholeUnits d).trans (wholeUnits_mono hsucc)
  rwa [wholeUnits_two_pow] at hle

theorem toSeconds_eq (d : Duration) :
    ∃ x : Finite, d.toSeconds = .finite x ∧ x.negative = false ∧ x.units = d.secondUnits := by
  have hwhole : d.seconds * one ≤ 2 ^ 64 * one * 1 := by
    rw [Nat.mul_one]
    exact Nat.mul_le_mul_right one d.seconds_lt.le
  have hrest : d.subsecond * one ≤ 2 ^ 0 * one * 1_000_000_000 := by
    rw [Nat.pow_zero, Nat.one_mul, Nat.mul_comm]
    exact Nat.mul_le_mul_left one d.subsecond_lt.le
  obtain ⟨x, hx, hxn, hxu⟩ := ofUnits_of_le false (k := 64) (by decide) Nat.one_pos hwhole
  obtain ⟨y, hy, hyn, hyu⟩ := ofUnits_of_le false (k := 0) (by decide) (by decide) hrest
  have hxle : x.units ≤ 2 ^ 64 * one := by
    have hmono := wholeUnits_mono d.seconds_lt.le
    rwa [wholeUnits_two_pow, wholeUnits, ← hxu] at hmono
  have hyle : y.units < one := by
    rw [hyu]
    exact restUnits_lt d.subsecond_lt
  have hsum : x.units + y.units ≤ 2 ^ 65 * one * 1 := by omega
  obtain ⟨z, hz, hzn, hzu⟩ := ofUnits_of_le false (k := 65) (by decide) Nat.one_pos hsum
  have hseconds : Binary64.ofNat d.seconds = .finite x := by
    rw [Binary64.ofNat, Binary64.ofRatio, shiftLeft_one, hx]
  have hsubsecond : Binary64.ofRatio false d.subsecond 1_000_000_000 = .finite y := by
    rw [Binary64.ofRatio, shiftLeft_one, hy]
  have htoSeconds : d.toSeconds = x.add y := by
    unfold toSeconds
    rw [hseconds, hsubsecond]
  refine ⟨z, ?_, hzn, ?_⟩
  · rw [htoSeconds, Finite.add_of_nonneg hxn hyn]
    exact hz
  · rw [hzu, hxu, hyu]
    rfl

/-! ## Stretching -/

/-- The nanoseconds of the duration times a factor, which is given in units. -/
def stretched (d : Duration) (factor : Nat) : Nat :=
  roundEven (nearest (factor * d.secondUnits) one * 1_000_000_000) one

theorem stretched_mono {d e : Duration} {f g : Nat} (hd : d.nanos ≤ e.nanos) (hf : f ≤ g) :
    d.stretched f ≤ e.stretched g := by
  have hproduct : f * d.secondUnits ≤ g * e.secondUnits :=
    Nat.mul_le_mul hf (secondUnits_mono hd)
  exact roundEven_mono (Nat.mul_le_mul_right _ (nearest_mono Binary64.one_pos hproduct))

theorem stretched_of_eq_zero {d : Duration} (h : d.nanos = 0) (f : Nat) : d.stretched f = 0 := by
  have hwhole : wholeUnits d.seconds = 0 := by
    have hseconds : d.seconds = 0 := by
      rw [seconds, h]
    rw [hseconds, wholeUnits, Nat.zero_mul]
    exact nearest_zero Nat.one_pos
  have hrest : restUnits d.subsecond = 0 := by
    have hsubsecond : d.subsecond = 0 := by
      rw [subsecond, h]
    rw [hsubsecond, restUnits, Nat.zero_mul]
    exact nearest_zero (by decide)
  have hsum : d.secondUnits = 0 := by
    rw [secondUnits, hwhole, hrest]
    exact nearest_zero Nat.one_pos
  have hround := roundEven_mul_self Binary64.one_pos 0
  rw [stretched, hsum, Nat.mul_zero, nearest_zero Binary64.one_pos, Nat.zero_mul]
  rwa [Nat.zero_mul] at hround

theorem scale_eq {x : Finite} (hx : x.negative = false) (hle : x.units ≤ 2 * one)
    (d : Duration) :
    d.scale (.finite x) =
      if h : d.stretched x.units < UInt64.size * 1_000_000_000 then .ok ⟨d.stretched x.units, h⟩
      else .error .unbounded := by
  obtain ⟨y, hy, hyn, hyu⟩ := toSeconds_eq d
  have hone : 1 <<< 1074 = one := by rw [shiftLeft_one, Nat.one_mul]
  have hbound : x.units * y.units ≤ 2 ^ 65 * one * one := by
    rw [hyu]
    calc x.units * d.secondUnits ≤ (2 * one) * (2 ^ 64 * one) :=
          Nat.mul_le_mul hle (secondUnits_le d)
      _ = 2 ^ 65 * one * one := by ring
  obtain ⟨z, hz, hzn, hzu⟩ := ofUnits_of_le false (k := 65) (by decide) Binary64.one_pos hbound
  have hmul : (Binary64.finite x).mul d.toSeconds = .finite z := by
    rw [hy, Binary64.mul, hx, hyn, hone]
    exact hz
  have hnanos : nanosOf z = d.stretched x.units := by
    rw [nanosOf, stretched, hone, hzu, hyu]
  unfold scale
  rw [hmul]
  unfold ofSeconds
  simp only [hzn, Bool.false_eq_true, false_and, if_false, hnanos]

/-! ## Half of twice a duration -/

theorem two_mul_nanos_le {d : Duration} (hd : d.nanos ≤ 2 ^ 24 * 1_000_000_000) {b : Nat}
    (hb : 53 + b = 1074) :
    2 * (d.nanos * one) ≤
      2 * (d.secondUnits * 1_000_000_000) + 1_000_000_000 * (2 ^ b + 2 ^ (b + 24)) := by
  have hone := one_eq hb
  have hnanos := d.nanos_eq
  have hsubsecond := d.subsecond_lt
  have hwhole : wholeUnits d.seconds = d.seconds * one := wholeUnits_of_lt (by omega)
  have hrest : 2 * (d.subsecond * one) ≤
      2 * (restUnits d.subsecond * 1_000_000_000) + 1_000_000_000 * 2 ^ b := by
    apply two_mul_le_nearest (by decide)
    rw [hone]
    calc d.subsecond * (2 ^ 53 * 2 ^ b) ≤ 1_000_000_000 * (2 ^ 53 * 2 ^ b) :=
          Nat.mul_le_mul_right _ hsubsecond.le
      _ = 2 ^ 53 * (1_000_000_000 * 2 ^ b) := by ring
  have hsum : wholeUnits d.seconds + restUnits d.subsecond ≤ 2 ^ 24 * one := by
    rcases Nat.lt_or_ge d.seconds (2 ^ 24) with hlt | hge
    · have hle := Nat.mul_le_mul_right one hlt
      have hless := restUnits_lt hsubsecond
      rw [Nat.succ_mul] at hle
      omega
    · have hseconds : d.seconds = 2 ^ 24 := by omega
      have hzero : d.subsecond = 0 := by omega
      have hnone : restUnits 0 = 0 := by
        rw [restUnits, Nat.zero_mul]
        exact nearest_zero (by decide)
      rw [hwhole, hseconds, hzero, hnone]
      omega
  have hclose : 2 * (wholeUnits d.seconds + restUnits d.subsecond) ≤
      2 * (d.secondUnits * 1) + 1 * 2 ^ (b + 24) := by
    apply two_mul_le_nearest Nat.one_pos
    calc wholeUnits d.seconds + restUnits d.subsecond ≤ 2 ^ 24 * one := hsum
      _ = 2 ^ 53 * (1 * 2 ^ (b + 24)) := by
        rw [hone, Nat.pow_add]
        ring
  have hsplit : d.nanos * one = d.seconds * one * 1_000_000_000 + d.subsecond * one := by
    rw [hnanos]
    ring
  rw [hsplit, ← hwhole]
  omega

theorem two_pow_le_secondUnits {d : Duration} (hd : d.nanos ≠ 0) : 2 ^ 53 ≤ d.secondUnits := by
  have hshortest : (⟨1, by decide⟩ : Duration).secondUnits ≤ d.secondUnits :=
    secondUnits_mono (Nat.one_le_iff_ne_zero.mpr hd)
  obtain ⟨b, hb⟩ : ∃ b, 53 + b = 1074 := ⟨1021, rfl⟩
  have hclose := two_mul_nanos_le (d := ⟨1, by decide⟩) (by decide) hb
  have hone := one_eq hb
  have hlarge : 2 ^ 100 ≤ 2 ^ b := Nat.pow_le_pow_right (by decide) (by omega)
  simp only [Nat.one_mul, Nat.pow_add] at hclose
  omega

/-- As long as twice a duration has at most `2 ^ 24` seconds, half of it is no less than before: the
roundings take away less than half a nanosecond. -/
theorem le_stretched_half {d e : Duration} {half : Nat} (he : e.nanos = 2 * d.nanos)
    (hd : d.nanos ≤ 2 ^ 23 * 1_000_000_000) (hhalf : one = 2 * half) :
    d.nanos ≤ e.stretched half := by
  rcases Nat.eq_zero_or_pos d.nanos with hzero | hpos
  · rw [hzero]
    exact Nat.zero_le _
  have hS : 2 ^ 53 ≤ e.secondUnits := two_pow_le_secondUnits (by omega)
  have hhalved : e.secondUnits ≤ 2 * nearest (half * e.secondUnits) one := by
    have hpositive := Binary64.one_pos
    rw [hhalf]
    exact le_two_mul_nearest (by omega) hS
  by_contra hlt
  have hround := two_mul_le_roundEven Binary64.one_pos
    (nearest (half * e.secondUnits) one * 1_000_000_000)
  have hless : (e.stretched half + 1) * one ≤ d.nanos * one := Nat.mul_le_mul_right one (by omega)
  obtain ⟨b, hb⟩ : ∃ b, 53 + b = 1074 := ⟨1021, rfl⟩
  have hclose := two_mul_nanos_le (d := e) (by omega) hb
  have hone := one_eq hb
  have hstep := Nat.two_pow_pos b
  rw [he, Nat.mul_assoc, Nat.pow_add] at hclose
  rw [Nat.add_mul, Nat.one_mul, stretched] at hless
  generalize one = unit at *
  omega

/-! ## Growth -/

theorem mul_nanos_le (d : Duration) :
    31 * (d.nanos * one) ≤ 32 * (d.secondUnits * 1_000_000_000) := by
  rcases Nat.eq_zero_or_pos d.nanos with hzero | hpos
  · rw [hzero]
    omega
  have hlarge : 2 ^ 100 ≤ one := two_pow_le_one (by decide)
  have hwhole : (2 ^ 53 - 1) * (d.seconds * one) ≤ 2 ^ 53 * (wholeUnits d.seconds * 1) := by
    rcases Nat.eq_zero_or_pos d.seconds with hzero | hpos
    · rw [hzero]
      omega
    · apply mul_le_nearest Nat.one_pos
      have hle := Nat.mul_le_mul_right one hpos
      rw [Nat.succ_mul] at hle
      omega
  have hrest : (2 ^ 53 - 1) * (d.subsecond * one) ≤
      2 ^ 53 * (restUnits d.subsecond * 1_000_000_000) := by
    rcases Nat.eq_zero_or_pos d.subsecond with hzero | hpos
    · rw [hzero]
      omega
    · apply mul_le_nearest (by decide)
      have hle := Nat.mul_le_mul_right one hpos
      rw [Nat.succ_mul] at hle
      omega
  have hsum : (2 ^ 53 - 1) * (wholeUnits d.seconds + restUnits d.subsecond) ≤
      2 ^ 53 * (d.secondUnits * 1) := by
    apply mul_le_nearest Nat.one_pos
    by_contra hlt
    have hsubnormal : unitsOfCode (2 ^ 52) = 2 ^ 52 := unitsOfCode_of_le (by decide)
    have hle : d.secondUnits ≤ unitsOfCode (2 ^ 52) := by
      apply nearest_le Nat.one_pos
      omega
    have hS : 2 ^ 53 ≤ d.secondUnits := two_pow_le_secondUnits (by omega)
    omega
  have hsplit : d.nanos * one = d.seconds * one * 1_000_000_000 + d.subsecond * one := by
    rw [d.nanos_eq]
    ring
  rw [hsplit]
  generalize d.seconds * one = x at *
  generalize d.subsecond * one = y at *
  omega

/-- A duration grows when it is stretched by a factor of at least 23 sixteenths, although it is
rounded. -/
theorem le_stretched {d : Duration} {f : Nat} (hf : 23 * one ≤ 16 * f) :
    d.nanos ≤ d.stretched f := by
  rcases Nat.eq_zero_or_pos d.nanos with hzero | hpos
  · rw [hzero]
    exact Nat.zero_le _
  have hS : 2 ^ 53 ≤ d.secondUnits := two_pow_le_secondUnits (by omega)
  have hproduct : (2 ^ 53 - 1) * (f * d.secondUnits) ≤
      2 ^ 53 * (nearest (f * d.secondUnits) one * one) := by
    apply mul_le_nearest Binary64.one_pos
    exact Nat.mul_le_mul (by omega) (by omega)
  have hfactor : 23 * (one * d.secondUnits) ≤ 16 * (f * d.secondUnits) := by
    rw [← Nat.mul_assoc, ← Nat.mul_assoc]
    exact Nat.mul_le_mul_right _ hf
  have hgrown : 23 * (2 ^ 53 - 1) * d.secondUnits ≤
      16 * 2 ^ 53 * nearest (f * d.secondUnits) one := by
    apply Nat.le_of_mul_le_mul_left _ Binary64.one_pos
    generalize one = unit at *
    calc unit * (23 * (2 ^ 53 - 1) * d.secondUnits)
        = (2 ^ 53 - 1) * (23 * (unit * d.secondUnits)) := by ring
      _ ≤ (2 ^ 53 - 1) * (16 * (f * d.secondUnits)) := Nat.mul_le_mul_left _ hfactor
      _ = 16 * ((2 ^ 53 - 1) * (f * d.secondUnits)) := by ring
      _ ≤ 16 * (2 ^ 53 * (nearest (f * d.secondUnits) unit * unit)) :=
          Nat.mul_le_mul_left 16 hproduct
      _ = unit * (16 * 2 ^ 53 * nearest (f * d.secondUnits) unit) := by ring
  have hnanos := mul_nanos_le d
  apply le_roundEven Binary64.one_pos
  omega

end RemoteObjects.Duration
