/-
# `QueryStencil.Proofs.Decimal.Integers` — whole numbers through binary64

A numeral may be a whole number without looking like one: `-0.70e1` is -7.  If
the whole number has at most 53 significant bits then rounding leaves it alone,
and if it is below 10²¹ as well then it comes out as that whole number
(`plainInt?_of_roundsTo`).  From 10²¹ on nothing does (`plainInt?_of_large`), and
then a point or a power of ten gives away that it was a real (`text_ne_repr`).

The numeral that a whole number is written as is one of its spellings
(`exists_spells_repr`).
-/
import Mathlib.Algebra.Order.Ring.Abs
import QueryStencil.Proofs.Decimal.Spelling
import QueryStencil.Proofs.Decimal.Value
import QueryStencil.Proofs.Value.NumberToken

namespace QueryStencil

open Text

namespace Numeral

variable {num : Numeral} {n : Int}

/-! ## A whole value -/

theorem abs_value (num : Numeral) : |num.value| = num.size := by
  rw [value]
  split
  · rw [abs_neg, abs_of_nonneg num.size_nonneg]
  · rw [abs_of_nonneg num.size_nonneg]

theorem size_eq_natAbs (h : num.value = n) : num.size = (n.natAbs : Nat) := by
  rw [← abs_value, h, Nat.cast_natAbs, Int.cast_abs]

/-- The whole number has the sign of the numeral, where zero may have either. -/
theorem signed_natAbs (h : num.value = n) :
    (if num.negative then -(n.natAbs : Int) else n.natAbs) = n := by
  have hsize := size_eq_natAbs h
  rw [value, hsize] at h
  split at h
  · rename_i hnegative
    have hcast : ((-(n.natAbs : Int) : Int) : ℚ) = n := by
      rw [Int.cast_neg, Int.cast_natCast]
      exact h
    rw [if_pos hnegative]
    exact Int.cast_injective hcast
  · rename_i hnegative
    have hcast : ((n.natAbs : Int) : ℚ) = n := by
      rw [Int.cast_natCast]
      exact h
    rw [if_neg hnegative]
    exact Int.cast_injective hcast

/-- A whole number of 53 bits is as many steps, with as many bits. -/
theorem precise_mul_stepsPerOne {m : Int} {scale : Nat} (hn : n = m * (twoTo scale : Nat))
    (hbits : m.natAbs ≤ twoTo 53) : Precise (n.natAbs * stepsPerOne) := by
  refine ⟨m.natAbs, scale + 1074, hbits, ?_⟩
  rw [hn, Int.natAbs_mul, Int.natAbs_natCast, Nat.mul_assoc, twoTo_add, stepsPerOne]

theorem mul_stepsPerOne_lt_stepLimit {a : Nat} (h : a < tenTo 21) :
    a * stepsPerOne < stepLimit := by
  have hlimit : tenTo 21 * stepsPerOne ≤ stepLimit := by decide +kernel
  exact Nat.lt_of_lt_of_le (Nat.mul_lt_mul_of_pos_right h stepsPerOne_pos) hlimit

/-- Steps that make up whole ones, below 10²¹ of them, are that whole number. -/
theorem plainInt?_finite {a : Nat} {m : Magnitude} (hsteps : m.steps = a * stepsPerOne)
    (h : a < tenTo 21) (negative : Bool) :
    (Binary64.finite negative m).plainInt? = some (if negative then -(a : Int) else a) := by
  have hintegral : m.isIntegral = true := by
    rw [Magnitude.isIntegral, hsteps, Nat.mul_mod_left]
    rfl
  have hwhole : m.whole = a := by
    rw [Magnitude.whole, hsteps, Nat.mul_div_cancel a stepsPerOne_pos]
  rw [Binary64.plainInt?, hintegral, hwhole, Bool.true_and, if_pos (decide_eq_true h)]

/-- A whole number of 53 bits below 10²¹ is rounded to itself, and comes out whole. -/
theorem plainInt?_of_roundsTo {x : Binary64} (hx : num.RoundsTo x) (hvalue : num.value = n)
    {m : Int} {scale : Nat} (hn : n = m * (twoTo scale : Nat)) (hbits : m.natAbs ≤ twoTo 53)
    (hlt : n.natAbs < tenTo 21) : x.isFinite = true ∧ x.plainInt? = some n := by
  have hprecise := precise_mul_stepsPerOne hn hbits
  have hsteps : num.size * stepsPerOne = ((n.natAbs * stepsPerOne : Nat) : ℚ) := by
    rw [size_eq_natAbs hvalue, Nat.cast_mul]
  cases hx with
  | finite magnitude hnearest =>
      rw [hsteps] at hnearest
      refine ⟨rfl, ?_⟩
      rw [plainInt?_finite (hnearest.eq_of_precise hprecise) hlt, signed_natAbs hvalue]
  | infinite steps hnearest hlarge =>
      rw [hsteps] at hnearest
      rw [hnearest.eq_of_precise hprecise] at hlarge
      exact absurd hlarge (Nat.not_le_of_lt (mul_stepsPerOne_lt_stepLimit hlt))

/-- There is a number of 53 bits at 10²¹, so nothing from there on is rounded below it. -/
theorem precise_tenTo_mul_stepsPerOne : Precise (tenTo 21 * stepsPerOne) := by
  have hbits : 476837158203125 ≤ twoTo 53 := by decide
  have hsplit : tenTo 21 = 476837158203125 * twoTo 21 := by decide
  refine ⟨476837158203125, 21 + 1074, hbits, ?_⟩
  rw [hsplit, Nat.mul_assoc, twoTo_add, stepsPerOne]

/-- A numeral from 10²¹ on does not come out whole. -/
theorem plainInt?_of_large {x : Binary64} (hx : num.RoundsTo x)
    (h : ((tenTo 21 : Nat) : ℚ) ≤ num.size) : x.plainInt? = none := by
  cases hx with
  | infinite => rfl
  | finite m hnearest =>
      have hle : ((tenTo 21 * stepsPerOne : Nat) : ℚ) ≤ num.size * stepsPerOne := by
        rw [Nat.cast_mul]
        exact mul_le_mul_of_nonneg_right h (Nat.cast_nonneg _)
      have hsteps := hnearest.le_of_precise precise_tenTo_mul_stepsPerOne hle
      have hwhole : tenTo 21 ≤ m.whole := (Nat.le_div_iff_mul_le stepsPerOne_pos).mpr hsteps
      rw [Binary64.plainInt?, if_neg]
      intro hplain
      have hlt := of_decide_eq_true (Bool.and_eq_true_iff.mp hplain).2
      exact absurd hlt (Nat.not_lt_of_le hwhole)

/-! ## The spelling of a whole number -/

theorem digitValue?_of_isDigit {c : Char} (h : c.isDigit = true) :
    digitValue? c = some (c.toNat - '0'.toNat) := by
  obtain ⟨hfirst, hlast⟩ := toNat_of_isDigit h
  rw [digitValue?, digitZeros, placeInRun, if_neg (Nat.not_lt_of_le hfirst),
    if_pos (Nat.lt_succ_of_le hlast)]
  rfl

theorem digitRun_of_isDigit {cs : List Char} (h : ∀ c ∈ cs, c.isDigit = true) :
    DigitRun cs (cs.map fun c => c.toNat - '0'.toNat) := by
  induction cs with
  | nil => exact .nil
  | cons c cs ih =>
      obtain ⟨hc, hcs⟩ := List.forall_mem_cons.mp h
      exact .cons (digitValue?_of_isDigit hc) (ih hcs)

/-- The digits of a natural number stand for it. -/
theorem exists_digitRun_repr (a : Nat) :
    ∃ digits, DigitRun a.repr.toList digits ∧ digits ≠ [] ∧ ofDigits digits = a := by
  rw [Nat.toList_repr]
  refine ⟨_, digitRun_of_isDigit fun c hc => Nat.isDigit_of_mem_toDigits (by decide) (by decide) hc,
    ?_, ?_⟩
  · rw [Ne, List.map_eq_nil_iff]
    exact Nat.toDigits_ne_nil
  · rw [ofDigits, List.foldl_map]
    calc List.foldl (fun n c => 10 * n + (c.toNat - '0'.toNat)) 0 (Nat.toDigits 10 a)
        = Nat.ofDigitChars 10 (Nat.toDigits 10 a) 0 := Nat.ofDigitChars_eq_foldl.symm
      _ = a := Nat.ofDigitChars_ten_toDigits

theorem spells_natural {ss : List Char} {negative : Bool} (hss : SignPart ss negative)
    (a : Nat) : Spells (ss ++ a.repr.toList) ⟨negative, a, 0⟩ := by
  obtain ⟨digits, hrun, hne, hvalue⟩ := exists_digitRun_repr a
  have hspells := Spells.mk hss (.whole hrun hne) .none
  rwa [List.append_nil, List.append_nil, hvalue] at hspells

/-- A whole number is written as a numeral of its value. -/
theorem exists_spells_repr (n : Int) : ∃ num, Spells n.repr.toList num ∧ num.value = n := by
  cases n with
  | ofNat a =>
      refine ⟨⟨false, a, 0⟩, spells_natural .none a, ?_⟩
      simp [value, size]
  | negSucc a =>
      rw [toList_repr_negSucc]
      refine ⟨⟨true, a + 1, 0⟩, spells_natural .minus (a + 1), ?_⟩
      simp [value, size, Int.negSucc_eq]

end Numeral

/-! ## Reals that are not written as whole numbers -/

namespace Layout

theorem mem_positional (digits : List Char) (exponent : Int) :
    '.' ∈ plain.positional digits exponent := by
  have hend : '.' ∈ plain.wholeEnd.toList := by decide
  simp only [positional]
  split
  · exact List.mem_append_left _ (List.mem_cons_of_mem _ List.mem_cons_self)
  · split
    · exact List.mem_append_right _ hend
    · exact List.mem_append_right _ List.mem_cons_self

theorem mem_exponential (digits : List Char) (exponent : Int) :
    'e' ∈ plain.exponential digits exponent :=
  List.mem_append_right _ List.mem_cons_self

/-- A magnitude is written with a point or with a power of ten. -/
theorem mem_magnitude (m : Magnitude) :
    '.' ∈ plain.magnitude m ∨ 'e' ∈ plain.magnitude m := by
  have hend : '.' ∈ plain.wholeEnd.toList := by decide
  simp only [magnitude, decimal]
  split
  · exact .inl (List.mem_cons_of_mem _ hend)
  · split
    · exact .inl (mem_positional _ _)
    · exact .inr (mem_exponential _ _)

theorem mem_signed {c : Char} {cs : List Char} (h : c ∈ cs) (negative : Bool) :
    c ∈ signed negative cs := by
  cases negative with
  | false => exact h
  | true => exact List.mem_cons_of_mem _ h

end Layout

/-- A real is not written as any whole number is. -/
theorem text_ne_repr {x : Binary64} (h : x.isFinite = true) (n : Int) : x.text ≠ n.repr := by
  intro heq
  cases x with
  | infinite => exact nomatch h
  | nan => exact nomatch h
  | finite negative m =>
      have hnone {c : Char} (hc : c ≠ '-' ∧ c.isDigit = false)
          (hmem : c ∈ Layout.plain.magnitude m) : False := by
        have hwritten : c ∈ (Binary64.finite negative m).text.toList := by
          rw [Binary64.text, Layout.write, String.toList_ofList]
          exact Layout.mem_signed hmem negative
        rw [heq] at hwritten
        rcases isDigit_of_mem_repr hwritten with hminus | hdigit
        · exact hc.1 hminus
        · exact Bool.false_ne_true (hc.2.symm.trans hdigit)
      rcases Layout.mem_magnitude m with hpoint | hmark
      · exact hnone (by decide) hpoint
      · exact hnone (by decide) hmark

end QueryStencil
