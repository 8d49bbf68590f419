/-
# `QueryStencil.Decimal.Power` — powers of two and of ten

The two bases between which numbers are converted, with the laws of powers
that the conversions rest on.
-/

namespace QueryStencil

/-- The power of two with exponent `k`. -/
def twoTo (k : Nat) : Nat := Nat.pow 2 k

/-- The power of ten with exponent `k`. -/
def tenTo (k : Nat) : Nat := Nat.pow 10 k

theorem twoTo_add (j k : Nat) : twoTo (j + k) = twoTo j * twoTo k := Nat.pow_add 2 j k

theorem twoTo_pos (k : Nat) : 0 < twoTo k := Nat.two_pow_pos k

theorem tenTo_pos (k : Nat) : 0 < tenTo k := Nat.pow_pos (by decide)

theorem twoTo_le_twoTo {j k : Nat} (h : j ≤ k) : twoTo j ≤ twoTo k :=
  Nat.pow_le_pow_right (by decide) h

/-- A number is below the power of two just above its binary logarithm. -/
theorem lt_twoTo_log2_succ (n : Nat) : n < twoTo (n.log2 + 1) := Nat.lt_log2_self

end QueryStencil
