/-
# `QueryStencil.Proofs.Text.Trim` — what trimming leaves

Trimming takes blanks away at both ends and nothing else.  So nothing is put
in (`mem_of_mem_trim`), a second trimming finds nothing to take away
(`trim_trim`), blanks at the end do not matter
(`trim_append_of_allBlank`), and nothing is left exactly of a text that is blank
throughout (`trim_eq_nil_iff`).
-/
import Mathlib.Data.List.DropRight
import QueryStencil.Text.Blank

namespace QueryStencil.Text

/-- Trimming is dropping at the front and then at the back. -/
theorem trim_eq_rdropWhile (cs : List Char) :
    trim cs = (cs.dropWhile isBlank).rdropWhile isBlank := rfl

theorem mem_of_mem_trim {c : Char} {cs : List Char} (h : c ∈ trim cs) : c ∈ cs := by
  rw [trim_eq_rdropWhile] at h
  have hfront : c ∈ cs.dropWhile isBlank := (List.rdropWhile_prefix _ _).subset h
  exact (List.dropWhile_sublist _).subset hfront

/-- What trimming takes away stands at the two ends, and is blank. -/
theorem exists_eq_append_trim (cs : List Char) :
    ∃ front back, AllBlank front ∧ AllBlank back ∧ cs = front ++ trim cs ++ back := by
  refine ⟨cs.takeWhile isBlank, (cs.dropWhile isBlank).rtakeWhile isBlank, ?_, ?_, ?_⟩
  · exact fun c hc => List.mem_takeWhile_imp hc
  · exact fun c hc => List.mem_rtakeWhile_imp hc
  · rw [trim_eq_rdropWhile, List.append_assoc, List.rdropWhile_append_rtakeWhile,
      List.takeWhile_append_dropWhile]

/-- Where there is no blank, nothing is trimmed. -/
theorem trim_eq_self {cs : List Char} (h : ∀ c ∈ cs, isBlank c = false) : trim cs = cs := by
  obtain ⟨front, back, hfront, hback, hcs⟩ := exists_eq_append_trim cs
  have hnone {blanks : List Char} (hblanks : AllBlank blanks) (hsub : blanks ⊆ cs) :
      blanks = [] := by
    refine List.eq_nil_iff_forall_not_mem.mpr fun c hc => ?_
    exact Bool.false_ne_true ((h c (hsub hc)).symm.trans (hblanks c hc))
  have hfront' : front = [] := hnone hfront fun c hc => by
    rw [hcs]
    exact List.mem_append_left _ (List.mem_append_left _ hc)
  have hback' : back = [] := hnone hback fun c hc => by
    rw [hcs]
    exact List.mem_append_right _ hc
  rw [hfront', hback', List.nil_append, List.append_nil] at hcs
  exact hcs.symm

theorem trim_eq_nil_iff {cs : List Char} : trim cs = [] ↔ AllBlank cs := by
  constructor
  · intro h
    have hfront : ∀ c ∈ cs.dropWhile isBlank, isBlank c = true :=
      List.rdropWhile_eq_nil_iff.mp h
    intro c hc
    rw [← List.takeWhile_append_dropWhile (p := isBlank) (l := cs)] at hc
    rcases List.mem_append.mp hc with hc | hc
    · exact List.mem_takeWhile_imp hc
    · exact hfront c hc
  · exact trim_of_allBlank

/-- What is trimmed at the back does not start with a blank if it did not before. -/
theorem dropWhile_rdropWhile_of_dropWhile {cs : List Char} (h : cs.dropWhile isBlank = cs) :
    (cs.rdropWhile isBlank).dropWhile isBlank = cs.rdropWhile isBlank := by
  obtain ⟨back, hback⟩ := List.rdropWhile_prefix isBlank cs
  cases hkept : cs.rdropWhile isBlank with
  | nil => rfl
  | cons c kept =>
      rw [hkept] at hback
      have hfirst : ¬ isBlank c = true := by
        intro hc
        rw [← hback, List.cons_append, List.dropWhile_cons_of_pos hc] at h
        have hlength := congrArg List.length h
        have hle := (List.dropWhile_sublist isBlank (l := kept ++ back)).length_le
        rw [List.length_cons] at hlength
        omega
      exact List.dropWhile_cons_of_neg hfirst

theorem trim_trim (cs : List Char) : trim (trim cs) = trim cs := by
  have hfront : (trim cs).dropWhile isBlank = trim cs :=
    dropWhile_rdropWhile_of_dropWhile (List.dropWhile_idempotent _ _)
  rw [trim_eq_rdropWhile (trim cs), hfront]
  exact List.rdropWhile_idempotent _ _

theorem trim_append_blank (cs : List Char) {b : Char} (h : isBlank b = true) :
    trim (cs ++ [b]) = trim cs := by
  rw [trim_eq_rdropWhile, trim_eq_rdropWhile, List.dropWhile_append]
  split
  · rename_i hnone
    rw [List.isEmpty_iff.mp hnone, List.dropWhile_cons_of_pos h]
    rfl
  · exact List.rdropWhile_concat_pos _ _ _ h

theorem trim_append_of_allBlank (cs : List Char) {pad : List Char} (h : AllBlank pad) :
    trim (cs ++ pad) = trim cs := by
  induction pad using List.reverseRecOn with
  | nil => rw [List.append_nil]
  | append_singleton pad b ih =>
      have hb : isBlank b = true := h b (List.mem_append_right _ (List.mem_singleton_self b))
      have hpad : AllBlank pad := fun c hc => h c (List.mem_append_left _ hc)
      rw [← List.append_assoc, trim_append_blank _ hb, ih hpad]

end QueryStencil.Text
