import Mathlib.Tactic.Ring
import RemoteObjects.Binary64

/-!
# Rounding to the nearest code

Rounding never turns an order round, and a magnitude that has a code is rounded to that code.  So
any magnitude with a code that bounds an exact result also bounds the rounded one.  Apart from that
the rounded magnitude is at most half a step away, a step being a power of two that grows with the
magnitude.
-/

namespace RemoteObjects

/-! ## Quotients -/

variable {num num' den n : Nat}

theorem roundEven_eq_or (num den : Nat) :
    (roundEven num den = num / den ∧ 2 * (num % den) ≤ den) ∨
      (roundEven num den = num / den + 1 ∧ den ≤ 2 * (num % den)) := by
  unfold roundEven
  dsimp only
  split
  · left
    omega
  · right
    omega

theorem le_roundEven (hden : 0 < den) (h : n * den ≤ num) : n ≤ roundEven num den := by
  have hquotient : n ≤ num / den := (Nat.le_div_iff_mul_le hden).mpr h
  rcases roundEven_eq_or num den with ⟨heq, -⟩ | ⟨heq, -⟩ <;> omega

theorem two_mul_le_roundEven (hden : 0 < den) (num : Nat) :
    2 * num ≤ 2 * (roundEven num den * den) + den := by
  have hdivision := Nat.div_add_mod' num den
  have hrest := Nat.mod_lt num hden
  rcases roundEven_eq_or num den with ⟨heq, hhalf⟩ | ⟨heq, -⟩
  · rw [heq]
    omega
  · rw [heq, Nat.add_mul, Nat.one_mul]
    omega

theorem two_mul_roundEven_le (num den : Nat) :
    2 * (roundEven num den * den) ≤ 2 * num + den := by
  have hdivision := Nat.div_add_mod' num den
  rcases roundEven_eq_or num den with ⟨heq, hrest⟩ | ⟨heq, hrest⟩
  · rw [heq]
    omega
  · rw [heq, Nat.add_mul, Nat.one_mul]
    omega

theorem roundEven_le (hden : 0 < den) (h : num ≤ n * den) : roundEven num den ≤ n := by
  by_contra hlt
  have hmul : (n + 1) * den ≤ roundEven num den * den := Nat.mul_le_mul_right den (by omega)
  have hclose := two_mul_roundEven_le num den
  rw [Nat.add_mul, Nat.one_mul] at hmul
  omega

theorem roundEven_mul_self (hden : 0 < den) (n : Nat) : roundEven (n * den) den = n :=
  Nat.le_antisymm (roundEven_le hden (Nat.le_refl _)) (le_roundEven hden (Nat.le_refl _))

theorem roundEven_mono (h : num ≤ num') : roundEven num den ≤ roundEven num' den := by
  rcases (Nat.div_le_div_right h : num / den ≤ num' / den).lt_or_eq with hlt | heq
  · rcases roundEven_eq_or num den with ⟨hround, -⟩ | ⟨hround, -⟩ <;>
      rcases roundEven_eq_or num' den with ⟨hround', -⟩ | ⟨hround', -⟩ <;> omega
  · have hrest : num % den ≤ num' % den := by
      have hdivision := Nat.div_add_mod' num den
      have hdivision' := Nat.div_add_mod' num' den
      rw [heq] at hdivision
      omega
    unfold roundEven
    dsimp only
    rw [heq]
    split <;> split <;> omega

namespace Binary64

/-! ## Codes -/

/-- Above the subnormal magnitudes a code is a binade and a significand of 53 bits in it; the
significand `2 ^ 53` is the first one of the next binade. -/
theorem unitsOfCode_binade {b m : Nat} (hm : 2 ^ 52 ≤ m) (hm' : m ≤ 2 ^ 53) :
    unitsOfCode (b * 2 ^ 52 + m) = m * 2 ^ b := by
  unfold unitsOfCode
  simp only [Nat.shiftLeft_eq, Nat.shiftRight_eq_div_pow, Nat.one_mul]
  rw [if_neg (by omega)]
  rcases hm'.lt_or_eq with hlt | rfl
  · have hexponent : (b * 2 ^ 52 + m) / 2 ^ 52 - 1 = b := by omega
    have hfraction : 2 ^ 52 + (b * 2 ^ 52 + m) % 2 ^ 52 = m := by omega
    rw [hexponent, hfraction]
  · have hexponent : (b * 2 ^ 52 + 2 ^ 53) / 2 ^ 52 - 1 = b + 1 := by omega
    have hfraction : 2 ^ 52 + (b * 2 ^ 52 + 2 ^ 53) % 2 ^ 52 = 2 ^ 52 := by omega
    rw [hexponent, hfraction, Nat.pow_succ]
    omega

theorem unitsOfCode_of_le {m : Nat} (hm : m ≤ 2 ^ 53) : unitsOfCode m = m := by
  rcases Nat.lt_or_ge m (2 ^ 52) with hlt | hge
  · unfold unitsOfCode
    simp only [Nat.shiftLeft_eq, Nat.one_mul]
    rw [if_pos hlt]
  · have hbinade := unitsOfCode_binade (b := 0) hge hm
    simpa using hbinade

/-- Every code lies in a binade: the lowest one, where a step is one unit, or one further up. -/
theorem exists_binade (c : Nat) :
    ∃ b m, c = b * 2 ^ 52 + m ∧ unitsOfCode c = m * 2 ^ b ∧ m < 2 ^ 53 ∧
      (b = 0 ∨ 2 ^ 52 ≤ m) := by
  rcases Nat.lt_or_ge c (2 ^ 53) with hlt | hge
  · refine ⟨0, c, by omega, ?_, hlt, .inl rfl⟩
    rw [unitsOfCode_of_le hlt.le]
    omega
  · have hcode : c = (c / 2 ^ 52 - 1) * 2 ^ 52 + (2 ^ 52 + c % 2 ^ 52) := by omega
    refine ⟨_, _, hcode, ?_, by omega, .inr (by omega)⟩
    conv_lhs => rw [hcode]
    exact unitsOfCode_binade (by omega) (by omega)

theorem exists_code {m : Nat} (hm : m < 2 ^ 53) (b : Nat) : ∃ c, unitsOfCode c = m * 2 ^ b := by
  induction b generalizing m with
  | zero => exact ⟨m, by rw [unitsOfCode_of_le hm.le]; omega⟩
  | succ b ih =>
      rcases Nat.lt_or_ge m (2 ^ 52) with hlt | hge
      · obtain ⟨c, hc⟩ := ih (m := 2 * m) (by omega)
        refine ⟨c, ?_⟩
        rw [hc, Nat.pow_succ]
        ring
      · exact ⟨_, unitsOfCode_binade hge hm.le⟩

/-! ## The nearest code -/

/-- The power of two that is the step at a magnitude. -/
def binadeOf (num den : Nat) : Nat := Nat.log2 (num / den) - 52

def nearest (num den : Nat) : Nat := unitsOfCode (nearestCode num den)

theorem nearestCode_eq (num den : Nat) :
    nearestCode num den =
      binadeOf num den * 2 ^ 52 + roundEven num (den * 2 ^ binadeOf num den) := by
  unfold nearestCode binadeOf
  simp only [Nat.shiftLeft_eq]

/-- The binade in which a magnitude is rounded. -/
def InBinade (num den b : Nat) : Prop :=
  num < 2 ^ 53 * (den * 2 ^ b) ∧ (b = 0 ∨ 2 ^ 52 * (den * 2 ^ b) ≤ num)

theorem inBinade_binadeOf (hden : 0 < den) (num : Nat) :
    InBinade num den (binadeOf num den) := by
  have hfloor : num / den < 2 ^ (Nat.log2 (num / den) + 1) := Nat.lt_log2_self
  constructor
  · have hle : 2 ^ (Nat.log2 (num / den) + 1) ≤ 2 ^ (53 + binadeOf num den) :=
      Nat.pow_le_pow_right (by decide) (by unfold binadeOf; omega)
    have hlt := (Nat.div_lt_iff_lt_mul hden).mp (hfloor.trans_le hle)
    rw [Nat.pow_add] at hlt
    calc num < 2 ^ 53 * 2 ^ binadeOf num den * den := hlt
      _ = 2 ^ 53 * (den * 2 ^ binadeOf num den) := by ring
  · rcases Nat.eq_zero_or_pos (binadeOf num den) with hzero | hpos
    · exact .inl hzero
    · right
      have hexponent : 52 + binadeOf num den = Nat.log2 (num / den) := by
        unfold binadeOf at hpos ⊢
        omega
      have hne : num / den ≠ 0 := by
        intro hzero
        simp [binadeOf, hzero] at hpos
      have hle : 2 ^ (52 + binadeOf num den) ≤ num / den := by
        rw [hexponent]
        exact Nat.log2_self_le hne
      have hmul := (Nat.le_div_iff_mul_le hden).mp hle
      rw [Nat.pow_add] at hmul
      calc 2 ^ 52 * (den * 2 ^ binadeOf num den) = 2 ^ 52 * 2 ^ binadeOf num den * den := by ring
        _ ≤ num := hmul

theorem InBinade.le_of_lt {b b' : Nat} (h : InBinade num den b)
    (hlt : num < 2 ^ 53 * (den * 2 ^ b')) : b ≤ b' := by
  rcases h.2 with rfl | hlow
  · exact Nat.zero_le _
  by_contra hgt
  have hpow : 2 ^ (b' + 1) ≤ 2 ^ b := Nat.pow_le_pow_right (by decide) (by omega)
  have hstep : 2 * (den * 2 ^ b') ≤ den * 2 ^ b := by
    calc 2 * (den * 2 ^ b') = den * 2 ^ (b' + 1) := by ring
      _ ≤ den * 2 ^ b := Nat.mul_le_mul_left den hpow
  omega

theorem InBinade.le_of_le {b b' : Nat} (h : InBinade num den b) (h' : InBinade num' den b')
    (hle : num ≤ num') : b ≤ b' :=
  h.le_of_lt (hle.trans_lt h'.1)

theorem InBinade.unique {b b' : Nat} (h : InBinade num den b) (h' : InBinade num den b') :
    b = b' :=
  Nat.le_antisymm (h.le_of_le h' le_rfl) (h'.le_of_le h le_rfl)

theorem InBinade.significand {b : Nat} (hden : 0 < den) (h : InBinade num den b) :
    roundEven num (den * 2 ^ b) ≤ 2 ^ 53 ∧ (b = 0 ∨ 2 ^ 52 ≤ roundEven num (den * 2 ^ b)) := by
  have hstep : 0 < den * 2 ^ b := Nat.mul_pos hden (Nat.two_pow_pos b)
  exact ⟨roundEven_le hstep h.1.le, h.2.imp_right (le_roundEven hstep)⟩

theorem nearestCode_of_inBinade {b : Nat} (hden : 0 < den) (h : InBinade num den b) :
    nearestCode num den = b * 2 ^ 52 + roundEven num (den * 2 ^ b) := by
  rw [nearestCode_eq, (inBinade_binadeOf hden num).unique h]

theorem nearest_of_inBinade {b : Nat} (hden : 0 < den) (h : InBinade num den b) :
    nearest num den = roundEven num (den * 2 ^ b) * 2 ^ b := by
  rw [nearest, nearestCode_of_inBinade hden h]
  obtain ⟨hhigh, rfl | hlow⟩ := h.significand hden
  · rw [Nat.zero_mul, Nat.zero_add, unitsOfCode_of_le hhigh]
    omega
  · exact unitsOfCode_binade hlow hhigh

theorem nearestCode_units (hden : 0 < den) (c : Nat) :
    nearestCode (unitsOfCode c * den) den = c := by
  obtain ⟨b, m, hcode, hunits, hhigh, hlow⟩ := exists_binade c
  have hstep : 0 < den * 2 ^ b := Nat.mul_pos hden (Nat.two_pow_pos b)
  have hexact : unitsOfCode c * den = m * (den * 2 ^ b) := by
    rw [hunits]
    ring
  have hin : InBinade (unitsOfCode c * den) den b := by
    rw [InBinade, hexact]
    exact ⟨Nat.mul_lt_mul_of_pos_right hhigh hstep,
      hlow.imp_right fun h ↦ Nat.mul_le_mul_right _ h⟩
  rw [nearestCode_of_inBinade hden hin, hexact, roundEven_mul_self hstep]
  exact hcode.symm

theorem nearestCode_mono (hden : 0 < den) (h : num ≤ num') :
    nearestCode num den ≤ nearestCode num' den := by
  have hin := inBinade_binadeOf hden num
  have hin' := inBinade_binadeOf hden num'
  rw [nearestCode_eq, nearestCode_eq]
  rcases (hin.le_of_le hin' h).lt_or_eq with hlt | heq
  · -- What is rounded up out of its binade gets no further than to the first code of the next one.
    have hhigh := (hin.significand hden).1
    have hlow := (hin'.significand hden).2
    omega
  · rw [heq]
    exact Nat.add_le_add_left (roundEven_mono h) _

theorem nearestCode_le {c : Nat} (hden : 0 < den) (h : num ≤ unitsOfCode c * den) :
    nearestCode num den ≤ c := by
  have hmono := nearestCode_mono hden h
  rwa [nearestCode_units hden] at hmono

theorem unitsOfCode_mono {c c' : Nat} (h : c ≤ c') : unitsOfCode c ≤ unitsOfCode c' := by
  by_contra hlt
  have hle := nearestCode_mono Nat.one_pos (Nat.mul_le_mul_right 1 (Nat.le_of_not_le hlt))
  rw [nearestCode_units Nat.one_pos, nearestCode_units Nat.one_pos] at hle
  have heq : c = c' := Nat.le_antisymm h hle
  exact hlt (heq ▸ le_rfl)

/-! ## The nearest magnitude -/

theorem nearest_mono (hden : 0 < den) (h : num ≤ num') : nearest num den ≤ nearest num' den :=
  unitsOfCode_mono (nearestCode_mono hden h)

theorem nearest_units (hden : 0 < den) (c : Nat) :
    nearest (unitsOfCode c * den) den = unitsOfCode c := by
  rw [nearest, nearestCode_units hden]

theorem nearest_zero (hden : 0 < den) : nearest 0 den = 0 := by
  have hzero : unitsOfCode 0 = 0 := unitsOfCode_of_le (Nat.zero_le _)
  have hexact := nearest_units hden 0
  rwa [hzero, Nat.zero_mul] at hexact

theorem le_nearest {c : Nat} (hden : 0 < den) (h : unitsOfCode c * den ≤ num) :
    unitsOfCode c ≤ nearest num den := by
  have hmono := nearest_mono hden h
  rwa [nearest_units hden] at hmono

theorem nearest_le {c : Nat} (hden : 0 < den) (h : num ≤ unitsOfCode c * den) :
    nearest num den ≤ unitsOfCode c :=
  unitsOfCode_mono (nearestCode_le hden h)

theorem nearest_mul_pow {m : Nat} (hm : m < 2 ^ 53) (b : Nat) :
    nearest (m * 2 ^ b) 1 = m * 2 ^ b := by
  obtain ⟨c, hc⟩ := exists_code hm b
  have hexact := nearest_units Nat.one_pos c
  rwa [Nat.mul_one, hc] at hexact

theorem nearest_le_nearest_add (num den r : Nat) :
    nearest num den ≤ nearest (nearest num den + r) 1 := by
  apply le_nearest Nat.one_pos
  rw [Nat.mul_one]
  exact Nat.le_add_right _ r

theorem le_two_mul_nearest {c half : Nat} (hhalf : 0 < half) (hc : 2 ^ 53 ≤ unitsOfCode c) :
    unitsOfCode c ≤ 2 * nearest (half * unitsOfCode c) (2 * half) := by
  obtain ⟨b, m, -, hunits, hm, -⟩ := exists_binade c
  obtain ⟨b, rfl⟩ : ∃ b', b = b' + 1 := by
    apply Nat.exists_eq_succ_of_ne_zero
    rintro rfl
    omega
  obtain ⟨c', hc'⟩ := exists_code hm b
  have hdouble : unitsOfCode c = 2 * unitsOfCode c' := by
    rw [hunits, hc', Nat.pow_succ]
    ring
  have hle : unitsOfCode c' ≤ nearest (half * unitsOfCode c) (2 * half) := by
    apply le_nearest (by omega)
    apply Nat.le_of_eq
    rw [hdouble]
    ring
  omega

/-- Up to `2 ^ (53 + b)` units no rounded magnitude is further below than half of `2 ^ b`. -/
theorem two_mul_le_nearest {b : Nat} (hden : 0 < den) (h : num ≤ 2 ^ 53 * (den * 2 ^ b)) :
    2 * num ≤ 2 * (nearest num den * den) + den * 2 ^ b := by
  rcases h.lt_or_eq with hlt | heq
  · have hin := inBinade_binadeOf hden num
    have hclose :=
      two_mul_le_roundEven (Nat.mul_pos hden (Nat.two_pow_pos (binadeOf num den))) num
    have hstep : den * 2 ^ binadeOf num den ≤ den * 2 ^ b :=
      Nat.mul_le_mul_left den (Nat.pow_le_pow_right (by decide) (hin.le_of_lt hlt))
    have hunits : nearest num den * den =
        roundEven num (den * 2 ^ binadeOf num den) * (den * 2 ^ binadeOf num den) := by
      rw [nearest_of_inBinade hden hin]
      ring
    rw [hunits]
    omega
  · obtain ⟨c, hc⟩ := exists_code (m := 1) (by decide) (53 + b)
    have hexact : num = unitsOfCode c * den := by
      rw [heq, hc, Nat.pow_add]
      ring
    rw [hexact, nearest_units hden]
    omega

/-- Above the subnormal magnitudes rounding takes away at most one part in `2 ^ 53`. -/
theorem mul_le_nearest (hden : 0 < den) (h : den * 2 ^ 52 ≤ num) :
    (2 ^ 53 - 1) * num ≤ 2 ^ 53 * (nearest num den * den) := by
  have hin := inBinade_binadeOf hden num
  have hclose := two_mul_le_nearest hden hin.1.le
  have hstep : 2 ^ 52 * (den * 2 ^ binadeOf num den) ≤ num := by
    rcases hin.2 with hzero | hlow
    · rw [hzero]
      omega
    · exact hlow
  omega

/-- What is less than half a step above a magnitude that has a code is rounded to it. -/
theorem nearest_add_of_lt {m b r : Nat} (hlow : 2 ^ 52 ≤ m) (hhigh : m < 2 ^ 53)
    (hr : 2 * r < 2 ^ b) : nearest (m * 2 ^ b + r) 1 = m * 2 ^ b := by
  have hlt : m * 2 ^ b + r < (m + 1) * 2 ^ b := by
    rw [Nat.add_mul, Nat.one_mul]
    omega
  have hin : InBinade (m * 2 ^ b + r) 1 b := by
    rw [InBinade, Nat.one_mul]
    refine ⟨hlt.trans_le (Nat.mul_le_mul_right _ hhigh), .inr ?_⟩
    exact (Nat.mul_le_mul_right _ hlow).trans (Nat.le_add_right _ _)
  rw [nearest_of_inBinade Nat.one_pos hin, Nat.one_mul]
  have hquotient : (m * 2 ^ b + r) / 2 ^ b = m := by
    rw [Nat.add_comm, Nat.add_mul_div_right _ _ (Nat.two_pow_pos b)]
    rw [Nat.div_eq_of_lt (by omega), Nat.zero_add]
  have hrest : (m * 2 ^ b + r) % 2 ^ b = r := by
    rw [Nat.add_comm, Nat.add_mul_mod_self_right, Nat.mod_eq_of_lt (by omega)]
  unfold roundEven
  dsimp only
  rw [hquotient, hrest, if_pos (.inl hr)]

/-! ## The number one -/

/-- There are `2 ^ pointBits` units in the number one.  Exponent and power stay folded, so that
nothing ever writes out so large a number. -/
@[irreducible] def pointBits : Nat := 1074

@[irreducible] def one : Nat := 2 ^ pointBits

theorem pointBits_eq : pointBits = 1074 := by
  rw [pointBits]

theorem one_eq {a b : Nat} (h : a + b = 1074) : one = 2 ^ a * 2 ^ b := by
  rw [one, pointBits_eq, ← h, Nat.pow_add]

protected theorem one_pos : 0 < one := by
  rw [one]
  exact Nat.two_pow_pos pointBits

theorem shiftLeft_one (n : Nat) : n <<< 1074 = n * one := by
  rw [← pointBits_eq, Nat.shiftLeft_eq, one]

theorem two_pow_le_one {b : Nat} (h : b ≤ 1074) : 2 ^ b ≤ one := by
  rw [← pointBits_eq] at h
  rw [one]
  exact Nat.pow_le_pow_right (by decide) h

theorem one_le_two_pow {b : Nat} (h : 1074 ≤ b) : one ≤ 2 ^ b := by
  rw [← pointBits_eq] at h
  rw [one]
  exact Nat.pow_le_pow_right (by decide) h

theorem nearest_mul_one {m : Nat} (hm : m < 2 ^ 53) : nearest (m * one) 1 = m * one := by
  rw [one]
  exact nearest_mul_pow hm pointBits

theorem nearest_two_pow_mul_one (k : Nat) : nearest (2 ^ k * one) 1 = 2 ^ k * one := by
  have hexact := nearest_mul_pow (m := 1) (by decide) (k + pointBits)
  rwa [Nat.one_mul, Nat.pow_add, ← one] at hexact

theorem unitsOfCode_two_pow_mul_one {b : Nat} (hb : 52 + b = 1074) (k : Nat) :
    unitsOfCode ((k + b) * 2 ^ 52 + 2 ^ 52) = 2 ^ k * one := by
  rw [unitsOfCode_binade (Nat.le_refl _) (by decide), one_eq hb, Nat.pow_add]
  ring

/-- Nothing up to the number `2 ^ 1022` is rounded to an infinity. -/
theorem ofUnits_of_le (negative : Bool) {k : Nat} (hk : k ≤ 1022) (hden : 0 < den)
    (h : num ≤ 2 ^ k * one * den) :
    ∃ x : Finite, ofUnits negative num den = .finite x ∧ x.negative = negative ∧
      x.units = nearest num den := by
  have hle : nearestCode num den ≤ (k + 1022) * 2 ^ 52 + 2 ^ 52 := by
    apply nearestCode_le hden
    rwa [unitsOfCode_two_pow_mul_one rfl]
  have hfinite : nearestCode num den < codes := by
    have hcodes : codes = 2047 * 2 ^ 52 := rfl
    omega
  refine ⟨⟨negative, nearestCode num den, hfinite⟩, ?_, rfl, rfl⟩
  unfold ofUnits
  rw [dif_pos hfinite]

theorem Finite.add_of_nonneg {x y : Finite} (hx : x.negative = false) (hy : y.negative = false) :
    x.add y = ofUnits false (x.units + y.units) 1 := by
  have hsum : x.signedUnits + y.signedUnits = ((x.units + y.units : Nat) : Int) := by
    simp [Finite.signedUnits, hx, hy]
  unfold Finite.add
  simp only [hsum, hx, Bool.false_and, Int.natAbs_natCast]
  congr 1
  split
  · rfl
  · exact decide_eq_false (by omega)

end Binary64

end RemoteObjects
