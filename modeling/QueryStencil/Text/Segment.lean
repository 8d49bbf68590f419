/-
# `QueryStencil.Text.Segment` — cutting a text at a separator

`before` and `after` are the parts of a text on the two sides of the first
separator; a text without one lies wholly before it.  `splitOn` cuts at every
separator, and `joinOn` puts the parts together again (`joinOn_splitOn`); the
other way round, joined parts that have no separator are cut apart again
(`splitOn_joinOn`).
-/

namespace QueryStencil.Text

/-- What stands before the first `sep`; the whole text if there is none. -/
def before (sep : Char) (cs : List Char) : List Char := cs.takeWhile (· != sep)

/-- What stands after the first `sep`; nothing if there is none. -/
def after (sep : Char) (cs : List Char) : List Char := (cs.dropWhile (· != sep)).drop 1

theorem before_append {sep : Char} {cs : List Char} (h : sep ∉ cs) (rest : List Char) :
    before sep (cs ++ sep :: rest) = cs := by
  have hkeep : ∀ c ∈ cs, (c != sep) = true := fun c hc => bne_iff_ne.mpr fun he => h (he ▸ hc)
  rw [before, List.takeWhile_append_of_pos hkeep]
  simp

theorem after_append {sep : Char} {cs : List Char} (h : sep ∉ cs) (rest : List Char) :
    after sep (cs ++ sep :: rest) = rest := by
  have hskip : ∀ c ∈ cs, (c != sep) = true := fun c hc => bne_iff_ne.mpr fun he => h (he ▸ hc)
  rw [after, List.dropWhile_append_of_pos hskip]
  simp

theorem not_mem_before (sep : Char) (cs : List Char) : sep ∉ before sep cs := by
  intro h
  have hkept := List.all_eq_true.mp (List.all_takeWhile (p := (· != sep)) (l := cs)) sep h
  exact bne_iff_ne.mp hkept rfl

theorem mem_of_mem_before {sep c : Char} {cs : List Char} (h : c ∈ before sep cs) : c ∈ cs :=
  (List.takeWhile_sublist _).subset h

theorem mem_of_mem_after {sep c : Char} {cs : List Char} (h : c ∈ after sep cs) : c ∈ cs :=
  (List.dropWhile_sublist _).subset (List.mem_of_mem_drop h)

/-- The parts between the separators: one more than there are separators. -/
def splitOn (sep : Char) : List Char → List (List Char)
  | [] => [[]]
  | c :: cs =>
      if c = sep then [] :: splitOn sep cs
      else match splitOn sep cs with
        | [] => [[c]]
        | part :: parts => (c :: part) :: parts

/-- The parts with `sep` between neighbours. -/
def joinOn (sep : Char) : List (List Char) → List Char
  | [] => []
  | [part] => part
  | part :: next :: parts => part ++ sep :: joinOn sep (next :: parts)

theorem splitOn_ne_nil (sep : Char) (cs : List Char) : splitOn sep cs ≠ [] := by
  cases cs with
  | nil => simp [splitOn]
  | cons c cs =>
      simp only [splitOn]
      split
      · simp
      · split <;> simp

theorem joinOn_cons_cons (sep c : Char) (part : List Char) (parts : List (List Char)) :
    joinOn sep ((c :: part) :: parts) = c :: joinOn sep (part :: parts) := by
  cases parts <;> rfl

/-- Cutting loses nothing but the separators, and joining puts those back. -/
theorem joinOn_splitOn (sep : Char) (cs : List Char) : joinOn sep (splitOn sep cs) = cs := by
  induction cs with
  | nil => rfl
  | cons c cs ih =>
      simp only [splitOn]
      split
      · rename_i h
        cases hs : splitOn sep cs with
        | nil => exact absurd hs (splitOn_ne_nil sep cs)
        | cons part parts => simp [joinOn, ← hs, ih, h]
      · split
        · rename_i hs; exact absurd hs (splitOn_ne_nil sep cs)
        · rename_i part parts hs
          rw [joinOn_cons_cons, ← hs, ih]

theorem splitOn_of_not_mem {sep : Char} {cs : List Char} (h : sep ∉ cs) :
    splitOn sep cs = [cs] := by
  induction cs with
  | nil => rfl
  | cons c cs ih =>
      obtain ⟨hc, hcs⟩ := List.ne_and_not_mem_of_not_mem_cons h
      simp only [splitOn, if_neg hc.symm, ih hcs]

theorem splitOn_append {sep : Char} {cs : List Char} (h : sep ∉ cs) (rest : List Char) :
    splitOn sep (cs ++ sep :: rest) = cs :: splitOn sep rest := by
  induction cs with
  | nil => exact if_pos rfl
  | cons c cs ih =>
      obtain ⟨hc, hcs⟩ := List.ne_and_not_mem_of_not_mem_cons h
      simp only [List.cons_append, splitOn, if_neg hc.symm, ih hcs]

/-- Parts without a separator come back when the joined text is cut. -/
theorem splitOn_joinOn {sep : Char} {parts : List (List Char)} (hne : parts ≠ [])
    (h : ∀ part ∈ parts, sep ∉ part) : splitOn sep (joinOn sep parts) = parts := by
  induction parts with
  | nil => exact absurd rfl hne
  | cons part parts ih =>
      obtain ⟨hpart, hparts⟩ := List.forall_mem_cons.mp h
      cases parts with
      | nil => exact splitOn_of_not_mem hpart
      | cons next parts =>
          rw [joinOn, splitOn_append hpart, ih (List.cons_ne_nil _ _) hparts]

/-- No part has a separator in it. -/
theorem not_mem_of_mem_splitOn {sep : Char} {cs part : List Char} (h : part ∈ splitOn sep cs) :
    sep ∉ part := by
  induction cs generalizing part with
  | nil =>
      obtain rfl := List.mem_singleton.mp h
      exact List.not_mem_nil
  | cons c cs ih =>
      simp only [splitOn] at h
      split at h
      · rcases List.mem_cons.mp h with rfl | h
        · exact List.not_mem_nil
        · exact ih h
      · rename_i hc
        split at h
        · rename_i hnone
          exact absurd hnone (splitOn_ne_nil sep cs)
        · rename_i first parts hcut
          rw [hcut] at ih
          rcases List.mem_cons.mp h with rfl | h
          · intro hsep
            rcases List.mem_cons.mp hsep with hsep | hsep
            · exact hc hsep.symm
            · exact ih List.mem_cons_self hsep
          · exact ih (List.mem_cons_of_mem first h)

end QueryStencil.Text
