/-
# `QueryStencil.Decimal.Binary64` — binary floating-point numbers, exactly

Every finite binary64 number is a whole number of steps of 2⁻¹⁰⁷⁴, and its
step count has at most 53 significant bits.  A magnitude is such a count;
a number is a signed magnitude, an infinity, or no number at all.

`Magnitude.ofRatio?` rounds a quotient of natural numbers to the nearest
magnitude, a half going to the even neighbour.  The arithmetic is exact
throughout, so the rounding is the one the format prescribes.
-/
import QueryStencil.Decimal.Power

namespace QueryStencil

/-- How many steps make one: 2¹⁰⁷⁴. -/
def stepsPerOne : Nat := twoTo 1074

/-- The least step count that is too large for a finite number: 2¹⁰²⁴ in steps. -/
def stepLimit : Nat := twoTo 2098

/-- A finite magnitude, counted in steps of 2⁻¹⁰⁷⁴. -/
structure Magnitude where
  steps : Nat
  /-- At most 53 significant bits. -/
  precise : ∃ significand scale, significand ≤ twoTo 53 ∧ steps = significand * twoTo scale
  /-- Below 2¹⁰²⁴. -/
  bounded : steps < stepLimit
deriving DecidableEq

/-- A binary64 number; all that is no number is one value. -/
inductive Binary64 where
  | finite (negative : Bool) (magnitude : Magnitude)
  | infinite (negative : Bool)
  | nan
deriving DecidableEq

/-- The natural number nearest to `num / den`; a half goes to the even neighbour. -/
def roundHalfEven (num den : Nat) : Nat :=
  let whole := num / den
  let left := num % den
  if 2 * left < den then whole
  else if den < 2 * left then whole + 1
  else whole + whole % 2

/-- The exponent of the spacing: magnitudes around a count of steps are that
power of two apart. -/
def scaleOf (steps : Nat) : Nat := steps.log2 - 52

/-- The step count nearest to `num / den` that has at most 53 significant bits. -/
def roundedSteps (num den : Nat) : Nat :=
  let scaled := num * stepsPerOne
  let scale := scaleOf (scaled / den)
  roundHalfEven scaled (den * twoTo scale) * twoTo scale

theorem roundHalfEven_le (num den bound : Nat) (h : num / den < bound) :
    roundHalfEven num den ≤ bound := by
  simp only [roundHalfEven]
  split
  · omega
  · split <;> omega

theorem lt_twoTo_scaleOf (steps : Nat) : steps < twoTo (53 + scaleOf steps) := by
  refine Nat.lt_of_lt_of_le (lt_twoTo_log2_succ steps) (twoTo_le_twoTo ?_)
  simp only [scaleOf]
  omega

/-- Rounding to the spacing leaves no more than 53 bits. -/
theorem roundHalfEven_spacings_le (scaled den : Nat) :
    roundHalfEven scaled (den * twoTo (scaleOf (scaled / den))) ≤ twoTo 53 := by
  refine roundHalfEven_le _ _ _ ?_
  rw [← Nat.div_div_eq_div_mul]
  refine Nat.div_lt_of_lt_mul ?_
  rw [← twoTo_add, Nat.add_comm]
  exact lt_twoTo_scaleOf _

theorem roundedSteps_precise (num den : Nat) :
    ∃ significand scale,
      significand ≤ twoTo 53 ∧ roundedSteps num den = significand * twoTo scale :=
  ⟨_, _, roundHalfEven_spacings_le _ _, rfl⟩

theorem stepsPerOne_pos : 0 < stepsPerOne := twoTo_pos 1074

theorem stepLimit_pos : 0 < stepLimit := twoTo_pos 2098

namespace Magnitude

/-- No steps at all. -/
def zero : Magnitude := ⟨0, ⟨0, 0, by omega, by omega⟩, stepLimit_pos⟩

/-- The magnitude nearest to `num / den`, unless that is too large. -/
def ofRatio? (num den : Nat) : Option Magnitude :=
  if h : roundedSteps num den < stepLimit then
    some ⟨roundedSteps num den, roundedSteps_precise num den, h⟩
  else
    none

/-- No fractional part: the steps make up whole ones. -/
def isIntegral (m : Magnitude) : Bool := m.steps % stepsPerOne == 0

/-- The whole part. -/
def whole (m : Magnitude) : Nat := m.steps / stepsPerOne

end Magnitude

namespace Binary64

/-- The number with the given sign and magnitude; what is too large for a magnitude is infinite. -/
def ofMagnitude? (negative : Bool) : Option Magnitude → Binary64
  | some m => .finite negative m
  | none => .infinite negative

/-- The number with the given sign that is nearest to `num / den`. -/
def ofRatio (negative : Bool) (num den : Nat) : Binary64 :=
  ofMagnitude? negative (Magnitude.ofRatio? num den)

/-- Neither infinite nor no number at all. -/
def isFinite : Binary64 → Bool
  | .finite .. => true
  | _ => false

end Binary64

end QueryStencil
