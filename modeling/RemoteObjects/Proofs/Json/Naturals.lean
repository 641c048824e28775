import RemoteObjects.Proofs.Json.Lexing

/-!
# Which numbers are natural

A number is kept as a natural one just if it is spelled by digits alone and these make less than
`2 ^ 64`; a sign, a point or a power makes it another kind of number.
-/

namespace RemoteObjects.Json

/-- The number that some digits make behind those of another number. -/
def appended (n : Nat) (ds : List Nat) : Nat := ds.foldl (fun n d ↦ n * 10 + d) n

theorem appended_cons (n d : Nat) (ds : List Nat) :
    appended n (d :: ds) = appended (n * 10 + d) ds := rfl

theorem le_appended (n : Nat) (ds : List Nat) : n ≤ appended n ds := by
  induction ds generalizing n with
  | nil => exact Nat.le_refl n
  | cons d ds ih =>
      have hrest := ih (n * 10 + d)
      rw [appended_cons]
      omega

namespace Numeral

/-! ## Digits before the point -/

theorem foldl_pushWhole_start (negative : Bool) (ds : List Nat) {n : Nat}
    (h : appended n ds < UInt64.size) :
    ds.foldl pushWhole (.start negative n) = .start negative (appended n ds) := by
  induction ds generalizing n with
  | nil => rfl
  | cons d ds ih =>
      have hfirst : n * 10 + d < UInt64.size := Nat.lt_of_le_of_lt (le_appended _ ds) h
      rw [List.foldl_cons, pushWhole_start hfirst]
      exact ih h

theorem place_le_pushWhole (n : Numeral) (d : Nat) : n.place ≤ (n.pushWhole d).place := by
  unfold pushWhole
  split
  · exact Int.le_refl n.place
  · simp only
    omega

theorem place_le_foldl_pushWhole (n : Numeral) (ds : List Nat) :
    n.place ≤ (ds.foldl pushWhole n).place := by
  induction ds generalizing n with
  | nil => exact Int.le_refl n.place
  | cons d ds ih => exact Int.le_trans (n.place_le_pushWhole d) (ih _)

/-- Digits that do not fit leave a power of ten behind. -/
theorem place_foldl_pos (negative : Bool) (ds : List Nat) {n : Nat} (hn : n < UInt64.size)
    (h : UInt64.size ≤ appended n ds) : 0 < (ds.foldl pushWhole (.start negative n)).place := by
  induction ds generalizing n with
  | nil => exact absurd h (Nat.not_le.mpr hn)
  | cons d ds ih =>
      rw [List.foldl_cons]
      by_cases hfits : n * 10 + d < UInt64.size
      · rw [pushWhole_start hfits]
        exact ih hfits h
      · have hkeep : (start negative n).keep? d = none := by
          have hdigits : (start negative n).digits.toNat = n := toNat_toUInt64 hn
          simp [keep?, hdigits, hfits]
        have hplace : ((start negative n).pushWhole d).place = 1 := by
          rw [pushWhole, hkeep]
          rfl
        have hrest := place_le_foldl_pushWhole ((start negative n).pushWhole d) ds
        omega

/-! ## Points and powers -/

theorem whole_foldl {push : Numeral → Nat → Numeral}
    (hpush : ∀ n d, (push n d).whole = n.whole) (ds : List Nat) (n : Numeral) :
    (ds.foldl push n).whole = n.whole := by
  induction ds generalizing n with
  | nil => rfl
  | cons d ds ih => rw [List.foldl_cons, ih, hpush]

theorem whole_pushFraction (n : Numeral) (d : Nat) : (n.pushFraction d).whole = n.whole := by
  unfold pushFraction
  split <;> rfl

theorem whole_pushExponent (n : Numeral) (d : Nat) : (n.pushExponent d).whole = n.whole := rfl

theorem number?_eq_natural {n : Numeral} {k : UInt64} (h : n.number? = some (.natural k)) :
    n.whole = true ∧ n.place = 0 ∧ n.negative = false ∧ n.digits = k := by
  have hfloat : n.float? ≠ some (.natural k) := by
    unfold float?
    split <;> simp
  unfold number? at h
  split at h
  · next hwhole =>
      split at h
      · split at h
        · cases h
        · exact absurd h hfloat
      · next hnegative =>
          cases h
          exact ⟨hwhole.1, hwhole.2, by simpa using hnegative, rfl⟩
  · exact absurd h hfloat

end Numeral

namespace Literal

/-- Whether a literal is made of digits alone, which make `n`. -/
def IsNatural (l : Literal) (n : Nat) : Prop :=
  l.negative = false ∧ l.fraction = none ∧ l.power = none ∧ appended 0 l.whole = n

theorem power_eq_none {l : Literal} (h : l.numeral.whole = true) : l.power = none := by
  unfold numeral at h
  cases hpower : l.power with
  | none => rfl
  | some p =>
      rw [hpower, Option.elim_some, Numeral.whole_foldl Numeral.whole_pushExponent] at h
      cases h

theorem fraction_eq_none {l : Literal} (h : l.fractionNumeral.whole = true) :
    l.fraction = none := by
  unfold fractionNumeral at h
  cases hfraction : l.fraction with
  | none => rfl
  | some ds =>
      rw [hfraction, Option.elim_some, Numeral.whole_foldl Numeral.whole_pushFraction] at h
      cases h

theorem number?_eq_natural_iff (l : Literal) (n : UInt64) :
    l.numeral.number? = some (.natural n) ↔ l.IsNatural n.toNat := by
  have hzero : 0 < UInt64.size := by decide
  constructor
  · intro h
    obtain ⟨hwhole, hplace, hnegative, hdigits⟩ := Numeral.number?_eq_natural h
    have hpower := power_eq_none hwhole
    have hfractionNumeral : l.numeral = l.fractionNumeral := by
      rw [numeral, hpower, Option.elim_none]
    rw [hfractionNumeral] at hwhole hplace hnegative hdigits
    have hfraction := fraction_eq_none hwhole
    have hwholeNumeral : l.fractionNumeral = l.wholeNumeral := by
      rw [fractionNumeral, hfraction, Option.elim_none]
    rw [hwholeNumeral, wholeNumeral] at hplace hnegative hdigits
    by_cases hfits : appended 0 l.whole < UInt64.size
    · rw [Numeral.foldl_pushWhole_start l.negative l.whole hfits] at hnegative hdigits
      refine ⟨hnegative, hfraction, hpower, ?_⟩
      rw [← hdigits]
      exact (toNat_toUInt64 hfits).symm
    · have hpos := Numeral.place_foldl_pos l.negative l.whole hzero (Nat.not_lt.mp hfits)
      omega
  · rintro ⟨hnegative, hfraction, hpower, hdigits⟩
    have hfits : appended 0 l.whole < UInt64.size := by
      rw [hdigits]
      exact n.toNat_lt
    have hnumeral : l.numeral = .start false n.toNat := by
      rw [numeral, hpower, Option.elim_none, fractionNumeral, hfraction, Option.elim_none,
        wholeNumeral, hnegative, Numeral.foldl_pushWhole_start false l.whole hfits, hdigits]
    rw [hnumeral, number?_start_natural]

end Literal

end RemoteObjects.Json
