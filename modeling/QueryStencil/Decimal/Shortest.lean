/-
# `QueryStencil.Decimal.Shortest` — the shortest decimal that reads back

Many decimals round to one magnitude.  `shortest` picks one with the fewest
digits, among those the nearest to the magnitude, and of two equally near the
one whose last digit is even.  For each number of digits it looks at the two
decimals of that length around the magnitude and asks whether they lie in the
interval that rounds to it.
-/
import QueryStencil.Decimal.Binary64

namespace QueryStencil

/-- The decimal `coefficient · 10 ^ exponent`. -/
structure Scientific where
  coefficient : Nat
  exponent : Int
deriving DecidableEq

/-- The reals that round to a magnitude, with both ends in half steps. -/
structure RoundingInterval where
  low : Nat
  high : Nat
  /-- Whether the ends themselves round to the magnitude. -/
  closed : Bool

/-- The interval that rounds to `steps`: half the spacing to either side, where
the spacing below the least number of a binade is that of the binade below it. -/
def RoundingInterval.around (steps : Nat) : RoundingInterval :=
  let scale := scaleOf steps
  let spacing := twoTo scale
  let spacingBelow := if steps = twoTo (52 + scale) then twoTo (scale - 1) else spacing
  { low := 2 * steps - spacingBelow
    high := 2 * steps + spacing
    closed := steps / spacing % 2 == 0 }

/-- Whether `num / den` half steps lie in the interval. -/
def RoundingInterval.holds (i : RoundingInterval) (num den : Nat) : Bool :=
  if i.closed then i.low * den ≤ num && num ≤ i.high * den
  else i.low * den < num && num < i.high * den

/-- The exponent of the leading decimal digit of a positive count of steps. -/
def leadingExponent (steps : Nat) : Int :=
  -- a step is more than 10⁻³²⁴, so 343 places leave a whole part
  ((steps * tenTo 343 / stepsPerOne).repr.length : Int) - 344

/-- The decimal with `digits` digits that reads back as `steps` and is nearest to it. -/
def nearestWithDigits (steps digits : Nat) : Option Scientific :=
  let exponent := leadingExponent steps - (digits - 1 : Nat)
  -- a unit of the last digit is `num / den` half steps
  let num := 2 * stepsPerOne * tenTo exponent.toNat
  let den := tenTo (-exponent).toNat
  let scaled := 2 * steps * den
  let under := scaled / num
  let left := scaled % num
  let interval := RoundingInterval.around steps
  let underFits := interval.holds (under * num) den
  let overFits := interval.holds ((under + 1) * num) den
  let pickUnder := 2 * left < num || (2 * left == num && under % 2 == 0)
  if underFits && (pickUnder || !overFits) then some ⟨under, exponent⟩
  else if overFits then some ⟨under + 1, exponent⟩
  else none

/-- A coefficient of ten is a one at the next place. -/
def Scientific.carry (d : Scientific) : Scientific :=
  if d.coefficient = 10 then ⟨1, d.exponent + 1⟩ else d

/-- The shortest decimal that reads back as a positive count of steps; seventeen digits always do. -/
def shortest (steps : Nat) : Scientific :=
  (((List.range 17).findSome? fun fewer => nearestWithDigits steps (fewer + 1)).getD ⟨0, 0⟩).carry

end QueryStencil
