/-
# `QueryStencil.Text.CodeRange` — sets of characters as ascending ranges

A character class is given by closed ranges of code points, ascending and
apart.  `inRanges` looks a code point up and stops at the first range that
lies above it.
-/

namespace QueryStencil.Text

/-- Membership in ascending closed ranges of code points. -/
def inRanges : List (Nat × Nat) → Nat → Bool
  | [], _ => false
  | (first, last) :: rest, n =>
      if n < first then false else if n ≤ last then true else inRanges rest n

/-- A member lies in one of the ranges. -/
theorem exists_range_of_inRanges {ranges : List (Nat × Nat)} {n : Nat}
    (h : inRanges ranges n = true) : ∃ range ∈ ranges, range.1 ≤ n ∧ n ≤ range.2 := by
  induction ranges with
  | nil => exact nomatch h
  | cons range ranges ih =>
      simp only [inRanges] at h
      split at h
      · exact nomatch h
      · split at h
        · exact ⟨range, List.mem_cons_self, by omega, by omega⟩
        · obtain ⟨range', hmem, hn⟩ := ih h
          exact ⟨range', List.mem_cons_of_mem range hmem, hn⟩

/-- What lies in a range apart from all of them is no member. -/
theorem inRanges_eq_false {ranges : List (Nat × Nat)} {first last n : Nat}
    (h : ∀ range ∈ ranges, range.2 < first ∨ last < range.1) (hn : first ≤ n ∧ n ≤ last) :
    inRanges ranges n = false := by
  cases hmem : inRanges ranges n with
  | false => rfl
  | true =>
      obtain ⟨range, hrange, hle⟩ := exists_range_of_inRanges hmem
      have hapart := h range hrange
      omega

end QueryStencil.Text
