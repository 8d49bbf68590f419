/-
# `QueryStencil.Proofs.Decimal.Rounding` — the nearest number of 53 bits

A binary64 magnitude is a count of steps with at most 53 significant bits.  What
a quantity rounds to is said here without any arithmetic of the format: it is
one of these counts, none of them is nearer, and if another one is as near, the
last of its 53 bits is zero (`NearestEven`).  There is at most one such count
(`NearestEven.unique`), and a quantity that is itself such a count is it.

`roundedSteps` computes it (`nearestEven_roundedSteps`).  It rounds to whole
multiples of the spacing around the quotient.  The counts that are no such
multiple lie below all that have the leading bit of the quotient, so the least
of those is nearer than they are.
-/
import Mathlib.Algebra.Order.Field.Rat
import Mathlib.Data.Nat.Cast.Order.Field
import Mathlib.Tactic.FieldSimp
import Mathlib.Tactic.Linarith
import Mathlib.Tactic.Positivity
import Mathlib.Tactic.Ring
import QueryStencil.Decimal.Binary64

namespace QueryStencil

/-! ## Counts of 53 bits -/

/-- At most 53 significant bits. -/
def Precise (n : Nat) : Prop :=
  ∃ significand scale, significand ≤ twoTo 53 ∧ n = significand * twoTo scale

/-- At most 53 significant bits, and the last one is zero. -/
def EvenlyPrecise (n : Nat) : Prop :=
  ∃ half scale, 2 * half ≤ twoTo 53 ∧ n = 2 * half * twoTo scale

/-- What a quantity rounds to: nothing of 53 bits is nearer, and if something is as near, the last
bit is zero. -/
structure NearestEven (x : ℚ) (steps : Nat) : Prop where
  precise : Precise steps
  nearest : ∀ n, Precise n → |x - steps| ≤ |x - n|
  even : ∀ n, Precise n → n ≠ steps → |x - n| = |x - steps| → EvenlyPrecise steps

/-! ## Rounding to whole numbers -/

section Whole

variable {num den : Nat}

/-- The whole number is no further away than a half, and even if it is as far. -/
theorem roundHalfEven_close (num : Nat) (hden : 0 < den) :
    2 * (roundHalfEven num den * den) ≤ 2 * num + den
      ∧ 2 * num ≤ 2 * (roundHalfEven num den * den) + den
      ∧ (2 * (roundHalfEven num den * den) = 2 * num + den
          ∨ 2 * num = 2 * (roundHalfEven num den * den) + den → roundHalfEven num den % 2 = 0) := by
  have hsplit : num / den * den + num % den = num := Nat.div_add_mod' num den
  have hleft : num % den < den := Nat.mod_lt num hden
  simp only [roundHalfEven]
  split
  · omega
  · split
    · rw [Nat.add_mul]
      omega
    · rcases Nat.mod_two_eq_zero_or_one (num / den) with heven | hodd
      · rw [heven, Nat.add_zero]
        omega
      · rw [hodd, Nat.add_mul]
        omega

theorem abs_div_sub_roundHalfEven_le (num : Nat) (hden : 0 < den) :
    |(num : ℚ) / den - roundHalfEven num den| ≤ 1 / 2 := by
  obtain ⟨hbelow, habove, -⟩ := roundHalfEven_close num hden
  have hpos : (0 : ℚ) < den := by exact_mod_cast hden
  have hbelow' : (2 * (roundHalfEven num den * den) : ℚ) ≤ 2 * num + den := by exact_mod_cast hbelow
  have habove' : (2 * num : ℚ) ≤ 2 * (roundHalfEven num den * den) + den := by exact_mod_cast habove
  rw [abs_le]
  constructor
  · rw [neg_le_sub_iff_le_add, ← sub_le_iff_le_add, le_div_iff₀ hpos]
    linarith
  · rw [sub_le_iff_le_add, div_le_iff₀ hpos]
    linarith

/-- Different whole numbers are at least one apart. -/
theorem one_le_abs_natCast_sub {i j : Nat} (h : i ≠ j) : 1 ≤ |(i : ℚ) - j| := by
  have hne : (i : Int) - j ≠ 0 := by omega
  exact_mod_cast Int.one_le_abs hne

/-- Any other whole number is at least a half away. -/
theorem half_le_abs_div_sub (hden : 0 < den) {j : Nat} (h : j ≠ roundHalfEven num den) :
    1 / 2 ≤ |(num : ℚ) / den - j| := by
  have hapart := one_le_abs_natCast_sub h
  have hclose := abs_div_sub_roundHalfEven_le num hden
  have htriangle := abs_sub_le (j : ℚ) ((num : ℚ) / den) (roundHalfEven num den)
  rw [abs_sub_comm (j : ℚ) ((num : ℚ) / den), abs_sub_comm (j : ℚ)] at *
  linarith

theorem abs_div_sub_roundHalfEven_le_abs (hden : 0 < den) (j : Nat) :
    |(num : ℚ) / den - roundHalfEven num den| ≤ |(num : ℚ) / den - j| := by
  by_cases h : j = roundHalfEven num den
  · rw [h]
  · exact le_trans (abs_div_sub_roundHalfEven_le num hden) (half_le_abs_div_sub hden h)

theorem roundHalfEven_mod_two (hden : 0 < den) {j : Nat} (hne : j ≠ roundHalfEven num den)
    (h : |(num : ℚ) / den - j| = |(num : ℚ) / den - roundHalfEven num den|) :
    roundHalfEven num den % 2 = 0 := by
  obtain ⟨-, -, heven⟩ := roundHalfEven_close num hden
  have hpos : (0 : ℚ) < den := by exact_mod_cast hden
  have hhalf : |(num : ℚ) / den - roundHalfEven num den| = 1 / 2 :=
    le_antisymm (abs_div_sub_roundHalfEven_le num hden) (h ▸ half_le_abs_div_sub hden hne)
  apply heven
  rcases (abs_eq (by norm_num)).mp hhalf with hup | hdown
  · right
    rw [sub_eq_iff_eq_add, div_eq_iff hpos.ne'] at hup
    have hnum : (2 * num : ℚ) = 2 * (roundHalfEven num den * den) + den := by linarith
    exact_mod_cast hnum
  · left
    rw [sub_eq_iff_eq_add, div_eq_iff hpos.ne'] at hdown
    have hnum : (2 * (roundHalfEven num den * den) : ℚ) = 2 * num + den := by linarith
    exact_mod_cast hnum

end Whole

/-! ## The spacing around a count -/

/-- A count of 53 bits is a multiple of the spacing around another one, or it is below all
that have as many bits as that one. -/
theorem Precise.multiple_or_lt {n : Nat} (h : Precise n) (steps : Nat) :
    (∃ j, n = j * twoTo (scaleOf steps))
      ∨ (n < twoTo 52 * twoTo (scaleOf steps) ∧ twoTo 52 * twoTo (scaleOf steps) ≤ steps) := by
  obtain ⟨significand, scale, hbits, rfl⟩ := h
  by_cases hscale : scaleOf steps ≤ scale
  · left
    refine ⟨significand * twoTo (scale - scaleOf steps), ?_⟩
    rw [Nat.mul_assoc, ← twoTo_add, Nat.sub_add_cancel hscale]
  · have hlog : 52 + scaleOf steps = steps.log2 := by
      simp only [scaleOf] at hscale ⊢
      omega
    have hne : steps ≠ 0 := by
      rintro rfl
      simp at hlog
    have hle : twoTo 52 * twoTo (scaleOf steps) ≤ steps := by
      rw [← twoTo_add, hlog]
      exact Nat.log2_self_le hne
    have hsmall : significand * twoTo scale ≤ twoTo 52 * twoTo (scaleOf steps) := by
      have hnext : twoTo (scale + 1) ≤ twoTo (scaleOf steps) := twoTo_le_twoTo (by omega)
      calc significand * twoTo scale
          ≤ twoTo 53 * twoTo scale := Nat.mul_le_mul_right _ hbits
        _ = twoTo 52 * twoTo (scale + 1) := by
            rw [← twoTo_add, ← twoTo_add, show 52 + (scale + 1) = 53 + scale by omega]
        _ ≤ twoTo 52 * twoTo (scaleOf steps) := Nat.mul_le_mul_left _ hnext
    rcases Nat.lt_or_eq_of_le hsmall with hlt | heq
    · exact .inr ⟨hlt, hle⟩
    · exact .inl ⟨twoTo 52, heq⟩

section Rounded

variable {num den : Nat} (hden : 0 < den)

/-- The spacing around the quotient. -/
def spacingAt (num den : Nat) : Nat := twoTo (scaleOf (num * stepsPerOne / den))

theorem spacingAt_pos (num den : Nat) : 0 < spacingAt num den := twoTo_pos _

theorem Precise.multiple_or_lt_spacingAt {n : Nat} (h : Precise n) (num den : Nat) :
    (∃ j, n = j * spacingAt num den)
      ∨ (n < twoTo 52 * spacingAt num den
        ∧ twoTo 52 * spacingAt num den ≤ num * stepsPerOne / den) :=
  h.multiple_or_lt _

/-- How many of the spacings there are, rounded. -/
def roundedSpacings (num den : Nat) : Nat :=
  roundHalfEven (num * stepsPerOne) (den * spacingAt num den)

theorem roundedSteps_eq (num den : Nat) :
    roundedSteps num den = roundedSpacings num den * spacingAt num den := rfl

/-- A distance to a multiple of the spacing, in spacings. -/
theorem abs_sub_multiple (num den j : Nat) :
    |((num * stepsPerOne : Nat) : ℚ) / den - (j * spacingAt num den : Nat)|
      = |((num * stepsPerOne : Nat) : ℚ) / (den * spacingAt num den : Nat) - j|
          * spacingAt num den := by
  have hpos : (0 : ℚ) < spacingAt num den := by exact_mod_cast spacingAt_pos num den
  have hquotient : ((num * stepsPerOne : Nat) : ℚ) / den - (j * spacingAt num den : Nat)
      = (((num * stepsPerOne : Nat) : ℚ) / (den * spacingAt num den : Nat) - j)
          * spacingAt num den := by
    rw [Nat.cast_mul den, ← div_div, sub_mul, div_mul_cancel₀ _ hpos.ne', Nat.cast_mul j]
  rw [hquotient, abs_mul, abs_of_pos hpos]

include hden

theorem abs_sub_roundedSteps_le_multiple (j : Nat) :
    |((num * stepsPerOne : Nat) : ℚ) / den - roundedSteps num den|
      ≤ |((num * stepsPerOne : Nat) : ℚ) / den - (j * spacingAt num den : Nat)| := by
  rw [roundedSteps_eq, abs_sub_multiple, abs_sub_multiple]
  exact mul_le_mul_of_nonneg_right
    (abs_div_sub_roundHalfEven_le_abs (Nat.mul_pos hden (spacingAt_pos num den)) j)
    (Nat.cast_nonneg _)

/-- Something of 53 bits that is no multiple of the spacing is further away. -/
theorem abs_sub_roundedSteps_lt {n : Nat} (hlt : n < twoTo 52 * spacingAt num den)
    (hle : twoTo 52 * spacingAt num den ≤ num * stepsPerOne / den) :
    |((num * stepsPerOne : Nat) : ℚ) / den - roundedSteps num den|
      < |((num * stepsPerOne : Nat) : ℚ) / den - n| := by
  have hbase : ((twoTo 52 * spacingAt num den : Nat) : ℚ) ≤ ((num * stepsPerOne : Nat) : ℚ) / den :=
    le_trans (by exact_mod_cast hle) Nat.cast_div_le
  have hn : (n : ℚ) < (twoTo 52 * spacingAt num den : Nat) := by exact_mod_cast hlt
  refine lt_of_le_of_lt (abs_sub_roundedSteps_le_multiple hden (twoTo 52)) ?_
  rw [abs_of_nonneg (sub_nonneg.mpr hbase), abs_of_pos (by linarith)]
  linarith

/-- Rounding gives the nearest count of 53 bits, and of two equally near the even one. -/
theorem nearestEven_roundedSteps :
    NearestEven (((num * stepsPerOne : Nat) : ℚ) / den) (roundedSteps num den) where
  precise := roundedSteps_precise num den
  nearest n hn := by
    rcases hn.multiple_or_lt_spacingAt num den with ⟨j, rfl⟩ | ⟨hlt, hle⟩
    · exact abs_sub_roundedSteps_le_multiple hden j
    · exact le_of_lt (abs_sub_roundedSteps_lt hden hlt hle)
  even n hn hne htie := by
    rcases hn.multiple_or_lt_spacingAt num den with ⟨j, rfl⟩ | ⟨hlt, hle⟩
    · have hdenpos : 0 < den * spacingAt num den := Nat.mul_pos hden (spacingAt_pos num den)
      have hspacing : (spacingAt num den : ℚ) ≠ 0 := by
        exact_mod_cast (spacingAt_pos num den).ne'
      have hj : j ≠ roundedSpacings num den := by
        rintro rfl
        exact hne rfl
      rw [roundedSteps_eq, abs_sub_multiple, abs_sub_multiple] at htie
      have heven := roundHalfEven_mod_two hdenpos hj (mul_right_cancel₀ hspacing htie)
      have htwice : 2 * (roundedSpacings num den / 2) = roundedSpacings num den :=
        Nat.mul_div_cancel' (Nat.dvd_of_mod_eq_zero heven)
      refine ⟨roundedSpacings num den / 2, scaleOf (num * stepsPerOne / den), ?_, ?_⟩
      · rw [htwice]
        exact roundHalfEven_spacings_le _ _
      · rw [htwice]
        rfl
    · exact absurd htie (abs_sub_roundedSteps_lt hden hlt hle).ne'

end Rounded

/-! ## What a quantity rounds to -/

namespace NearestEven

variable {x : ℚ} {steps : Nat}

/-- A count of 53 bits rounds to itself. -/
theorem eq_of_precise {n : Nat} (h : NearestEven n steps) (hn : Precise n) : steps = n := by
  have hzero : |(n : ℚ) - steps| = 0 := by
    refine le_antisymm ?_ (abs_nonneg _)
    have hnear := h.nearest n hn
    rwa [sub_self, abs_zero] at hnear
  exact_mod_cast (sub_eq_zero.mp (abs_eq_zero.mp hzero)).symm

/-- Nothing is rounded down below a count of 53 bits. -/
theorem le_of_precise {n : Nat} (h : NearestEven x steps) (hn : Precise n) (hle : (n : ℚ) ≤ x) :
    n ≤ steps := by
  by_contra hlt
  have hlt' : (steps : ℚ) < n := by exact_mod_cast Nat.lt_of_not_le hlt
  have hnear := h.nearest n hn
  rw [abs_of_nonneg (by linarith), abs_of_nonneg (by linarith)] at hnear
  linarith

/-- No count of 53 bits is between two that are nearest. -/
theorem not_between {a b c : Nat} (ha : NearestEven x a) (hb : NearestEven x b) (hac : a < c)
    (hc : Precise c) : b ≤ c := by
  by_contra hcb
  have hac' : (a : ℚ) < c := by exact_mod_cast hac
  have hcb' : (c : ℚ) < b := by exact_mod_cast Nat.lt_of_not_le hcb
  have hnear := ha.nearest c hc
  have hnear' := hb.nearest c hc
  rcases le_total (c : ℚ) x with hle | hle
  · rw [abs_of_nonneg (by linarith), abs_of_nonneg (by linarith)] at hnear
    linarith
  · rw [abs_of_nonpos (by linarith), abs_of_nonpos (by linarith)] at hnear'
    linarith

end NearestEven

theorem EvenlyPrecise.exists_lt {n : Nat} (h : EvenlyPrecise n) :
    ∃ half scale, 2 * half < twoTo 53 ∧ n = 2 * half * twoTo scale := by
  obtain ⟨half, scale, hbits, rfl⟩ := h
  rcases Nat.lt_or_eq_of_le hbits with hlt | heq
  · exact ⟨half, scale, hlt, rfl⟩
  · refine ⟨twoTo 51, scale + 1, by decide, ?_⟩
    rw [heq, Nat.add_comm, twoTo_add, ← Nat.mul_assoc]
    rfl

/-- Between two even multiples of a unit stands an odd one. -/
theorem odd_multiple_between {i j unit : Nat} (h : 2 * i * unit < 2 * j * unit) :
    2 * i * unit < (2 * i + 1) * unit ∧ (2 * i + 1) * unit < 2 * j * unit
      ∧ 2 * i * unit < (2 * j - 1) * unit ∧ (2 * j - 1) * unit < 2 * j * unit := by
  have hunit : 0 < unit := by
    rcases Nat.eq_zero_or_pos unit with rfl | hpos
    · exact absurd h (Nat.lt_irrefl _)
    · exact hpos
  have hij : 2 * i < 2 * j := Nat.lt_of_mul_lt_mul_right h
  refine ⟨?_, ?_, ?_, ?_⟩ <;> exact Nat.mul_lt_mul_of_pos_right (by omega) hunit

/-- Two counts that end in a zero bit are not next to each other. -/
theorem EvenlyPrecise.exists_between {a b : Nat} (ha : EvenlyPrecise a) (hb : EvenlyPrecise b)
    (hab : a < b) : ∃ c, Precise c ∧ a < c ∧ c < b := by
  obtain ⟨half, scale, hbits, rfl⟩ := ha.exists_lt
  obtain ⟨half', scale', hbits', rfl⟩ := hb
  rcases Nat.le_total scale scale' with hle | hle
  · have hunit : 2 * half' * twoTo scale' = 2 * (half' * twoTo (scale' - scale)) * twoTo scale := by
      rw [← Nat.mul_assoc, Nat.mul_assoc (2 * half'), ← twoTo_add, Nat.sub_add_cancel hle]
    rw [hunit] at hab ⊢
    obtain ⟨hafter, hbefore, -, -⟩ := odd_multiple_between hab
    exact ⟨_, ⟨2 * half + 1, scale, hbits, rfl⟩, hafter, hbefore⟩
  · have hunit : 2 * half * twoTo scale = 2 * (half * twoTo (scale - scale')) * twoTo scale' := by
      rw [← Nat.mul_assoc, Nat.mul_assoc (2 * half), ← twoTo_add, Nat.sub_add_cancel hle]
    rw [hunit] at hab ⊢
    obtain ⟨-, -, hafter, hbefore⟩ := odd_multiple_between hab
    exact ⟨_, ⟨2 * half' - 1, scale', by omega, rfl⟩, hafter, hbefore⟩

/-- There is only one count that a quantity rounds to. -/
theorem NearestEven.unique {x : ℚ} {a b : Nat} (ha : NearestEven x a) (hb : NearestEven x b) :
    a = b := by
  have hdistance : |x - a| = |x - b| :=
    le_antisymm (ha.nearest b hb.precise) (hb.nearest a ha.precise)
  by_contra hne
  have heven := ha.even b hb.precise (Ne.symm hne) hdistance.symm
  have heven' := hb.even a ha.precise hne hdistance
  rcases Nat.lt_or_gt_of_ne hne with hlt | hlt
  · obtain ⟨c, hc, hac, hcb⟩ := heven.exists_between heven' hlt
    exact absurd (ha.not_between hb hac hc) (Nat.not_le_of_lt hcb)
  · obtain ⟨c, hc, hac, hcb⟩ := heven'.exists_between heven hlt
    exact absurd (hb.not_between ha hac hc) (Nat.not_le_of_lt hcb)

end QueryStencil
