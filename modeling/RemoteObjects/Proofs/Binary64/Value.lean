import Mathlib.Algebra.Order.Field.Basic
import Mathlib.Algebra.Order.Ring.Abs
import Mathlib.Data.Rat.Cast.Order
import Mathlib.Order.WithBotTop
import Mathlib.Tactic.FieldSimp
import Mathlib.Tactic.Linarith
import Mathlib.Tactic.NormNum
import Mathlib.Tactic.Positivity
import RemoteObjects.Proofs.Binary64.Rounding

/-!
# What binary64 numbers stand for

A finite number stands for a rational number, and the infinite ones lie beyond all of these.  The
order of the numbers is the order of what they stand for; NaN stands for nothing.
-/

namespace RemoteObjects

/-! ## The nearest natural number -/

/-- Whether a natural number is nearest to a rational one, and even if there are two such. -/
def Nearest (q : ℚ) (n : ℕ) : Prop := |q - n| ≤ 1 / 2 ∧ (|q - n| = 1 / 2 → Even n)

theorem Nearest.unique {q : ℚ} {n m : ℕ} (hn : Nearest q n) (hm : Nearest q m) : n = m := by
  by_contra hne
  wlog hlt : n < m generalizing n m
  · exact this hm hn (Ne.symm hne) (by omega)
  have hgap : (n : ℚ) + 1 ≤ m := by exact_mod_cast hlt
  obtain ⟨hnlow, hnhigh⟩ := abs_le.mp hn.1
  obtain ⟨hmlow, hmhigh⟩ := abs_le.mp hm.1
  -- The two are half a step away on either side, so both are even and yet neighbours.
  have hnhalf : q - n = 1 / 2 := by linarith
  have hmhalf : q - m = -(1 / 2) := by linarith
  have hneven : Even n := hn.2 (by rw [hnhalf]; norm_num)
  have hmeven : Even m := hm.2 (by rw [hmhalf]; norm_num)
  have hnext : m = n + 1 := by
    have hcast : (m : ℚ) = (n + 1 : ℕ) := by
      push_cast
      linarith
    exact_mod_cast hcast
  rw [hnext] at hmeven
  exact (Nat.even_add_one.mp hmeven) hneven

theorem Nearest.mono {p q : ℚ} {n m : ℕ} (hn : Nearest p n) (hm : Nearest q m) (h : p ≤ q) :
    n ≤ m := by
  rcases h.lt_or_eq with hlt | rfl
  · by_contra hgt
    have hgap : (m : ℚ) + 1 ≤ n := by exact_mod_cast Nat.lt_of_not_le hgt
    obtain ⟨hnlow, -⟩ := abs_le.mp hn.1
    obtain ⟨-, hmhigh⟩ := abs_le.mp hm.1
    linarith
  · exact (hn.unique hm).le

theorem nearest_roundEven {num den : ℕ} (hden : 0 < den) :
    Nearest ((num : ℚ) / den) (roundEven num den) := by
  have hpos : (0 : ℚ) < den := by exact_mod_cast hden
  have hsplit : (num : ℚ) / den = (num / den : ℕ) + (num % den : ℕ) / den := by
    have hdivision : ((num / den : ℕ) : ℚ) * den + (num % den : ℕ) = num := by
      exact_mod_cast Nat.div_add_mod' num den
    field_simp
    linarith
  have hrest : ((num % den : ℕ) : ℚ) / den < 1 := by
    rw [div_lt_one hpos]
    exact_mod_cast Nat.mod_lt num hden
  have hnonneg : (0 : ℚ) ≤ ((num % den : ℕ) : ℚ) / den := by positivity
  have hhalf : ((num % den : ℕ) : ℚ) / den ≤ 1 / 2 ↔ 2 * (num % den) ≤ den := by
    rw [div_le_div_iff₀ hpos two_pos, one_mul, mul_comm]
    exact_mod_cast Iff.rfl
  have hexact : ((num % den : ℕ) : ℚ) / den = 1 / 2 ↔ 2 * (num % den) = den := by
    rw [div_eq_div_iff hpos.ne' two_ne_zero, one_mul, mul_comm]
    exact_mod_cast Iff.rfl
  unfold roundEven
  dsimp only
  split
  · next hdown =>
      have hle : 2 * (num % den) ≤ den := by omega
      rw [Nearest, hsplit, add_sub_cancel_left, abs_of_nonneg hnonneg]
      refine ⟨hhalf.mpr hle, fun htie ↦ ?_⟩
      have heq := hexact.mp htie
      exact Nat.even_iff.mpr (by omega)
  · next hup =>
      have hge : ¬2 * (num % den) < den := by omega
      have hlow : 1 / 2 ≤ ((num % den : ℕ) : ℚ) / den := by
        by_contra hlt
        rw [not_le] at hlt
        have hle := hhalf.mp hlt.le
        exact hlt.ne (hexact.mpr (by omega))
      have hgap : (num : ℚ) / den - (num / den + 1 : ℕ) = -(1 - (num % den : ℕ) / den) := by
        rw [hsplit]
        push_cast
        ring
      rw [Nearest, hgap, abs_neg, abs_of_nonneg (by linarith)]
      refine ⟨by linarith, fun htie ↦ ?_⟩
      have heq := hexact.mp (by linarith)
      exact Nat.even_iff.mpr (by omega)

namespace Binary64

/-! ## Numbers -/

def Finite.value (x : Finite) : ℚ := x.signedUnits / one

/-- What a number stands for. -/
def number? : Binary64 → Option (WithBot (WithTop ℚ))
  | .finite x => some ((x.value : WithTop ℚ) : WithBot (WithTop ℚ))
  | .infinite false => some ⊤
  | .infinite true => some ⊥
  | .nan => none

theorem cast_one_pos : (0 : ℚ) < one := by exact_mod_cast Binary64.one_pos

theorem Finite.value_lt_iff {x y : Finite} : x.value < y.value ↔ x.signedUnits < y.signedUnits := by
  rw [value, value, div_lt_div_iff_of_pos_right cast_one_pos]
  exact_mod_cast Iff.rfl

/-- Whether one number is below another. -/
def Below (x y : Binary64) : Prop := ∃ a b, x.number? = some a ∧ y.number? = some b ∧ a < b

/-- Whether both are numbers and the first one does not exceed the second. -/
def AtMost (x y : Binary64) : Prop := ∃ a b, x.number? = some a ∧ y.number? = some b ∧ a ≤ b

theorem lt_eq_true_iff {x y : Binary64} : x.lt y = true ↔ x.Below y := by
  have htop (q : ℚ) : ((q : WithTop ℚ) : WithBot (WithTop ℚ)) < ⊤ :=
    WithBot.coe_lt_coe.mpr (WithTop.coe_lt_top q)
  unfold Below
  rcases x with x | (_ | _) | _ <;> rcases y with y | (_ | _) | _ <;>
    simp [Binary64.lt, number?, Finite.value_lt_iff, htop]

end Binary64

end RemoteObjects
