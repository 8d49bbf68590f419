/-
# `QueryStencil.Proofs.Decimal.Value` — numerals as binary64 numbers

A numeral has an exact value, and the binary64 number that it is read as is what
this value rounds to (`roundsTo_toBinary64`): the nearest one, with the sign of
the numeral, and an infinity if the nearest count of 53 bits is not below 2¹⁰²⁴.
There is only one such number (`RoundsTo.unique`).

A power of ten that is far from zero is not computed.  There the digits of the
coefficient bound the value, and the bound is enough: it is less than half a step
or more than the largest number.
-/
import Mathlib.Algebra.Order.Field.Power
import Mathlib.Tactic.NormNum
import QueryStencil.Decimal.Numeral
import QueryStencil.Proofs.Decimal.Rounding

namespace QueryStencil

/-! ## Powers of ten -/

theorem cast_tenTo (k : Nat) : (tenTo k : ℚ) = (10 : ℚ) ^ (k : Int) := by
  rw [zpow_natCast]
  exact_mod_cast (rfl : tenTo k = 10 ^ k)

/-- A power of ten is one of the two, by the sign of its exponent, and the other one is one. -/
theorem zpow_eq_tenTo_div (e : Int) :
    (10 : ℚ) ^ e = (tenTo e.toNat : ℚ) / tenTo (-e).toNat := by
  have hsplit : e = (e.toNat : Int) - ((-e).toNat : Int) := by omega
  rw [cast_tenTo, cast_tenTo, ← zpow_sub₀ (by norm_num), ← hsplit]

/-- How many digits there are tells between which powers of ten a number is. -/
theorem lt_tenTo_length_repr (n : Nat) : n < tenTo n.repr.length := by
  have hpos : 0 < n.repr.length := by
    rw [← String.length_toList, Nat.toList_repr]
    exact List.length_pos_iff.mpr Nat.toDigits_ne_nil
  refine (Nat.length_toDigits_le_iff (b := 10) (by decide) hpos).mp ?_
  rw [← Nat.toList_repr, String.length_toList]

theorem tenTo_le_of_lt_length_repr {n k : Nat} (hn : 0 < n) (hk : k < n.repr.length) :
    tenTo k ≤ n := by
  cases k with
  | zero => exact hn
  | succ k =>
      by_contra hlt
      have hlength := (Nat.length_toDigits_le_iff (b := 10) (by decide) (Nat.succ_pos k)).mpr
        (Nat.lt_of_not_le hlt)
      rw [← Nat.toList_repr, String.length_toList] at hlength
      omega

/-- A magnitude is its count of steps. -/
theorem Magnitude.ext_steps {m m' : Magnitude} (h : m.steps = m'.steps) : m = m' := by
  cases m
  cases m'
  cases h
  rfl

namespace Numeral

/-! ## The exact value -/

/-- How far from zero the value is. -/
def size (n : Numeral) : ℚ := n.coefficient * (10 : ℚ) ^ n.exponent

/-- The exact value. -/
def value (n : Numeral) : ℚ := if n.negative then -n.size else n.size

/-- The binary64 number that a numeral rounds to.  It has the sign of the numeral, and is infinite
if what is nearest to the value has to be 2¹⁰²⁴ or more. -/
inductive RoundsTo (n : Numeral) : Binary64 → Prop where
  | finite (m : Magnitude) (nearest : NearestEven (n.size * stepsPerOne) m.steps) :
      RoundsTo n (.finite n.negative m)
  | infinite (steps : Nat) (nearest : NearestEven (n.size * stepsPerOne) steps)
      (tooLarge : stepLimit ≤ steps) : RoundsTo n (.infinite n.negative)

theorem RoundsTo.unique {n : Numeral} {x y : Binary64} (hx : n.RoundsTo x) (hy : n.RoundsTo y) :
    x = y := by
  cases hx with
  | finite m hm =>
      cases hy with
      | finite m' hm' => rw [Magnitude.ext_steps (hm.unique hm')]
      | infinite steps hsteps hlarge =>
          have hlt := m.bounded
          rw [hm.unique hsteps] at hlt
          exact absurd hlarge (Nat.not_le_of_lt hlt)
  | infinite steps hsteps hlarge =>
      cases hy with
      | finite m hm =>
          have hlt := m.bounded
          rw [hm.unique hsteps] at hlt
          exact absurd hlarge (Nat.not_le_of_lt hlt)
      | infinite => rfl

/-! ## Rounding the value -/

theorem size_nonneg (n : Numeral) : 0 ≤ n.size :=
  mul_nonneg (Nat.cast_nonneg _) (zpow_nonneg (by norm_num) _)

/-- The value in steps, as the quotient that is rounded. -/
theorem size_mul_stepsPerOne (n : Numeral) :
    n.size * stepsPerOne
      = ((n.coefficient * tenTo n.exponent.toNat * stepsPerOne : Nat) : ℚ)
          / tenTo (-n.exponent).toNat := by
  rw [size, zpow_eq_tenTo_div]
  push_cast
  ring

theorem nearestEven_size (n : Numeral) :
    NearestEven (n.size * stepsPerOne)
      (roundedSteps (n.coefficient * tenTo n.exponent.toNat) (tenTo (-n.exponent).toNat)) := by
  rw [size_mul_stepsPerOne]
  exact nearestEven_roundedSteps (tenTo_pos _)

/-- Less than half a step rounds to nothing. -/
theorem nearestEven_zero {x : ℚ} (hx : 0 ≤ x) (hlt : x < 1 / 2) : NearestEven x 0 where
  precise := ⟨0, 0, Nat.zero_le _, rfl⟩
  nearest n _ := by
    rcases Nat.eq_zero_or_pos n with rfl | hpos
    · exact le_refl _
    · have hone : (1 : ℚ) ≤ n := by exact_mod_cast hpos
      rw [Nat.cast_zero, sub_zero, abs_of_nonneg hx, abs_of_nonpos (by linarith)]
      linarith
  even _ _ _ _ := ⟨0, 0, Nat.zero_le _, rfl⟩

theorem size_of_coefficient_eq_zero {n : Numeral} (h : n.coefficient = 0) : n.size = 0 := by
  rw [size, h, Nat.cast_zero, zero_mul]

/-- The value is below the power of ten with as many places as the coefficient has. -/
theorem size_lt_zpow (n : Numeral) :
    n.size < (10 : ℚ) ^ ((n.coefficient.repr.length : Int) + n.exponent) := by
  have hcoefficient : (n.coefficient : ℚ) < (10 : ℚ) ^ (n.coefficient.repr.length : Int) := by
    rw [← cast_tenTo]
    exact_mod_cast lt_tenTo_length_repr n.coefficient
  rw [size, zpow_add₀ (by norm_num)]
  exact mul_lt_mul_of_pos_right hcoefficient (zpow_pos (by norm_num) _)

/-- A value above zero is not below the power of ten with one place less. -/
theorem zpow_le_size {n : Numeral} (hne : n.coefficient ≠ 0) {places : Int}
    (h : places < (n.coefficient.repr.length : Int) + n.exponent) : (10 : ℚ) ^ places ≤ n.size := by
  have hdigits : tenTo (n.coefficient.repr.length - 1) ≤ n.coefficient := by
    have hpos : 0 < n.coefficient.repr.length := by
      by_contra hzero
      have hlt := lt_tenTo_length_repr n.coefficient
      rw [Nat.eq_zero_of_not_pos hzero] at hlt
      exact hne (Nat.lt_one_iff.mp hlt)
    exact tenTo_le_of_lt_length_repr (Nat.pos_of_ne_zero hne) (by omega)
  have hcoefficient : (10 : ℚ) ^ (places - n.exponent) ≤ n.coefficient := by
    calc (10 : ℚ) ^ (places - n.exponent)
        ≤ (10 : ℚ) ^ ((n.coefficient.repr.length - 1 : Nat) : Int) :=
          zpow_le_zpow_right₀ (by norm_num) (by omega)
      _ ≤ n.coefficient := by
          rw [← cast_tenTo]
          exact_mod_cast hdigits
  have hplaces : (10 : ℚ) ^ places = (10 : ℚ) ^ (places - n.exponent) * (10 : ℚ) ^ n.exponent := by
    rw [← zpow_add₀ (by norm_num), sub_add_cancel]
  rw [size, hplaces]
  exact mul_le_mul_of_nonneg_right hcoefficient (zpow_nonneg (by norm_num) _)

/-- A value with its digits far behind the point is less than half a step. -/
theorem size_mul_stepsPerOne_lt_half {n : Numeral}
    (h : (n.coefficient.repr.length : Int) + n.exponent < -400) :
    n.size * stepsPerOne < 1 / 2 := by
  have hsteps : 2 * stepsPerOne ≤ tenTo 401 := by decide +kernel
  have hsteps' : (2 * stepsPerOne : ℚ) ≤ (10 : ℚ) ^ ((401 : Nat) : Int) := by
    rw [← cast_tenTo]
    exact_mod_cast hsteps
  have hsize : n.size < (10 : ℚ) ^ (-(401 : Nat) : Int) :=
    lt_of_lt_of_le n.size_lt_zpow (zpow_le_zpow_right₀ (by norm_num) (by omega))
  have hpos : (0 : ℚ) < stepsPerOne := by exact_mod_cast stepsPerOne_pos
  calc n.size * stepsPerOne
      < (10 : ℚ) ^ (-(401 : Nat) : Int) * stepsPerOne := mul_lt_mul_of_pos_right hsize hpos
    _ ≤ (10 : ℚ) ^ (-(401 : Nat) : Int) * ((10 : ℚ) ^ ((401 : Nat) : Int) / 2) :=
        mul_le_mul_of_nonneg_left ((le_div_iff₀' (by norm_num)).mpr hsteps')
          (zpow_nonneg (by norm_num) _)
    _ = 1 / 2 := by
        rw [← mul_div_assoc, ← zpow_add₀ (by norm_num), neg_add_cancel, zpow_zero]

/-- A value with its digits far before the point is more than the largest number. -/
theorem stepLimit_le_size_mul {n : Numeral} (hne : n.coefficient ≠ 0)
    (h : 400 < (n.coefficient.repr.length : Int) + n.exponent) :
    (stepLimit : ℚ) ≤ n.size * stepsPerOne := by
  have hsteps : stepLimit ≤ tenTo 400 * stepsPerOne := by decide +kernel
  have hsize : ((tenTo 400 : Nat) : ℚ) ≤ n.size := by
    rw [cast_tenTo]
    exact zpow_le_size hne h
  calc (stepLimit : ℚ)
      ≤ (tenTo 400 * stepsPerOne : Nat) := by exact_mod_cast hsteps
    _ = (tenTo 400 : Nat) * (stepsPerOne : ℚ) := Nat.cast_mul _ _
    _ ≤ n.size * stepsPerOne := mul_le_mul_of_nonneg_right hsize (Nat.cast_nonneg _)

theorem precise_stepLimit : Precise stepLimit := by
  refine ⟨1, 2098, by decide, ?_⟩
  rw [Nat.one_mul, stepLimit]

/-- Rounding a quotient gives the rounded steps, or they are too many. -/
theorem ofRatio_cases (negative : Bool) (num den : Nat) :
    (∃ m : Magnitude, m.steps = roundedSteps num den
        ∧ Binary64.ofRatio negative num den = .finite negative m)
      ∨ (stepLimit ≤ roundedSteps num den
        ∧ Binary64.ofRatio negative num den = .infinite negative) := by
  have hcases : (∃ m : Magnitude, m.steps = roundedSteps num den
        ∧ Magnitude.ofRatio? num den = some m)
      ∨ stepLimit ≤ roundedSteps num den ∧ Magnitude.ofRatio? num den = none := by
    simp only [Magnitude.ofRatio?]
    split
    · exact .inl ⟨_, rfl, rfl⟩
    · rename_i hmany
      exact .inr ⟨Nat.le_of_not_lt hmany, rfl⟩
  rw [Binary64.ofRatio]
  rcases hcases with ⟨m, hsteps, hratio⟩ | ⟨hmany, hratio⟩
  · rw [hratio]
    exact .inl ⟨m, hsteps, rfl⟩
  · rw [hratio]
    exact .inr ⟨hmany, rfl⟩

theorem roundsTo_ofRatio {n : Numeral} {num den : Nat}
    (h : NearestEven (n.size * stepsPerOne) (roundedSteps num den)) :
    n.RoundsTo (Binary64.ofRatio n.negative num den) := by
  rcases ofRatio_cases n.negative num den with ⟨m, hsteps, hratio⟩ | ⟨hlarge, hratio⟩
  · rw [hratio]
    rw [← hsteps] at h
    exact .finite m h
  · rw [hratio]
    exact .infinite _ h hlarge

/-- The number that a numeral is read as is what its value rounds to. -/
theorem roundsTo_toBinary64 (n : Numeral) : n.RoundsTo n.toBinary64 := by
  have hnearest := n.nearestEven_size
  simp only [toBinary64]
  split
  · rename_i hsmall
    have hhalf : n.size * stepsPerOne < 1 / 2 := by
      rcases Bool.or_eq_true _ _ |>.mp hsmall with hzero | hplaces
      · rw [size_of_coefficient_eq_zero (of_decide_eq_true hzero), zero_mul]
        norm_num
      · exact size_mul_stepsPerOne_lt_half (of_decide_eq_true hplaces)
    exact .finite .zero (nearestEven_zero (mul_nonneg n.size_nonneg (Nat.cast_nonneg _)) hhalf)
  · rename_i hsmall
    have hne : n.coefficient ≠ 0 := by
      intro hzero
      exact hsmall (Bool.or_eq_true _ _ |>.mpr (.inl (decide_eq_true hzero)))
    split
    · rename_i hplaces
      have hlimit := hnearest.le_of_precise precise_stepLimit (stepLimit_le_size_mul hne hplaces)
      exact .infinite _ hnearest hlimit
    · exact roundsTo_ofRatio hnearest

end Numeral

end QueryStencil
