/-
# `QueryStencil.Proofs.Saved.Edits` — values through a history of edits

Each time a template is edited, its values are brought to one for each
placeholder.  So places come and go with the counts of placeholders, and what
stands in a place in the end depends on one thing only: the last time when
there was no such place.

If there never was such a time the value is the one from the start, and in the
same place (`ByPlace.kept`).  Otherwise it is the default that was put there by
the edit right after that time (`ByPlace.renewed`), whatever the values were
before.  One edit tells only about the place that it keeps or makes, so the
proof is an induction on the edits from the last one back.
-/
import Mathlib.Data.List.Induction
import QueryStencil.Proofs.Saved.Sync

namespace QueryStencil

open Template

/-- A template as it was after an edit, and the engine as it was at that time. -/
structure Edit where
  engine : Engine
  template : String

namespace Edit

/-- The template as it was read. -/
def reading (x : Edit) : Reading := x.engine.read x.template

/-- How many values the template takes. -/
def count (x : Edit) : Nat := x.reading.placeholders.length

/-- The values after the edit. -/
def sync (values : List Value) (x : Edit) : List Value := x.engine.sync x.reading values

end Edit

/-- The values after edits, one after the other. -/
def syncAll (values : List Value) (edits : List Edit) : List Value := edits.foldl Edit.sync values

/-- How many values there were at the start, and after each edit. -/
def valueCounts (values : List Value) (edits : List Edit) : List Nat :=
  values.length :: edits.map Edit.count

/-- The last of the counts that has no place `i` is the one at index `j`. -/
structure LastShort (counts : List Nat) (i j : Nat) : Prop where
  short : ∃ c, counts[j]? = some c ∧ c ≤ i
  later : ∀ m c, j < m → counts[m]? = some c → i < c

/-! ## One edit -/

variable {values : List Value} {edits : List Edit} {x : Edit} {i j : Nat}

theorem syncAll_concat : syncAll values (edits ++ [x]) = x.sync (syncAll values edits) :=
  List.foldl_concat _ _ _ _

theorem valueCounts_concat :
    valueCounts values (edits ++ [x]) = valueCounts values edits ++ [x.count] := by
  rw [valueCounts, List.map_append, valueCounts]
  rfl

theorem length_valueCounts : (valueCounts values edits).length = edits.length + 1 := by
  rw [valueCounts, List.length_cons, List.length_map]

theorem Edit.length_sync (x : Edit) (values : List Value) : (x.sync values).length = x.count :=
  Reading.length_syncWith _ _ _

/-- After an edit there is the old value in an old place, and the default in a new one. -/
theorem Edit.getElem?_sync (x : Edit) (values : List Value) (hi : i < x.count) :
    ∃ p, x.reading.placeholders[i]? = some p
      ∧ (x.sync values)[i]? = some (values[i]?.getD (x.engine.standIn p)) := by
  have hp := List.getElem?_eq_getElem hi
  exact ⟨_, hp, Reading.getElem?_syncWith _ _ _ hp⟩

/-- The last count is that of the values as they are now. -/
theorem getElem?_valueCounts_length :
    (valueCounts values edits)[edits.length]? = some (syncAll values edits).length := by
  induction edits using List.reverseRecOn with
  | nil => rfl
  | append_singleton edits x _ =>
      have hlast : (edits ++ [x]).length = (valueCounts values edits).length := by
        rw [List.length_append, length_valueCounts, List.length_singleton]
      rw [valueCounts_concat, hlast, List.getElem?_concat_length, syncAll_concat, x.length_sync]

/-- A count that still has the place changes nothing about when it was last missing. -/
theorem LastShort.concat {counts : List Nat} {c : Nat} (h : LastShort counts i j) (hc : i < c) :
    LastShort (counts ++ [c]) i j := by
  obtain ⟨d, hd, hle⟩ := h.short
  have hj : j < counts.length := (List.getElem?_eq_some_iff.mp hd).1
  refine ⟨⟨d, (List.getElem?_append_left hj).trans hd, hle⟩, ?_⟩
  intro m d' hm hd'
  rcases Nat.lt_or_ge m counts.length with hlt | hge
  · rw [List.getElem?_append_left hlt] at hd'
    exact h.later m d' hm hd'
  · rw [List.getElem?_append_right hge] at hd'
    obtain rfl := List.mem_singleton.mp (List.mem_of_getElem? hd')
    exact hc

/-- If a count has no place `i` and the next and last one has it, that is when it was missing. -/
theorem lastShort_concat_of_le {counts : List Nat} {c d : Nat} (hd : counts[j]? = some d)
    (hj : counts.length = j + 1) (hle : d ≤ i) (hc : i < c) : LastShort (counts ++ [c]) i j := by
  refine ⟨⟨d, (List.getElem?_append_left (by omega)).trans hd, hle⟩, ?_⟩
  intro m d' hm hd'
  rw [List.getElem?_append_right (by omega)] at hd'
  obtain rfl := List.mem_singleton.mp (List.mem_of_getElem? hd')
  exact hc

theorem LastShort.unique {counts : List Nat} {j' : Nat} (h : LastShort counts i j)
    (h' : LastShort counts i j') : j = j' := by
  obtain ⟨c, hc, hle⟩ := h.short
  obtain ⟨c', hc', hle'⟩ := h'.short
  rcases Nat.lt_trichotomy j j' with hlt | heq | hgt
  · exact absurd (h.later j' c' hlt hc') (Nat.not_lt_of_le hle')
  · exact heq
  · exact absurd (h'.later j c hgt hc) (Nat.not_lt_of_le hle)

/-! ## All edits -/

/-- A place of the last template: it was there all the time, or there was a last time without it. -/
theorem syncAll_cases (values : List Value) (edits : List Edit)
    (hi : i < (syncAll values edits).length) :
    ((∀ c ∈ valueCounts values edits, i < c) ∧ (syncAll values edits)[i]? = values[i]?)
      ∨ ∃ j x p, LastShort (valueCounts values edits) i j ∧ edits[j]? = some x
        ∧ x.reading.placeholders[i]? = some p
        ∧ (syncAll values edits)[i]? = some (x.engine.standIn p) := by
  induction edits using List.reverseRecOn with
  | nil => exact .inl ⟨fun c hc => List.mem_singleton.mp hc ▸ hi, rfl⟩
  | append_singleton edits x ih =>
      rw [syncAll_concat] at hi ⊢
      rw [x.length_sync] at hi
      obtain ⟨p, hp, hvalue⟩ := x.getElem?_sync (syncAll values edits) hi
      rw [valueCounts_concat, hvalue]
      rcases Nat.lt_or_ge i (syncAll values edits).length with hold | hnew
      · rw [List.getElem?_eq_getElem hold, Option.getD_some, ← List.getElem?_eq_getElem hold]
        rcases ih hold with ⟨hall, hkept⟩ | ⟨j, y, q, hshort, hy, hq, hvalue⟩
        · refine .inl ⟨?_, hkept⟩
          intro c hc
          rcases List.mem_append.mp hc with hc | hc
          · exact hall c hc
          · exact List.mem_singleton.mp hc ▸ hi
        · have hj : j < edits.length := (List.getElem?_eq_some_iff.mp hy).1
          have hy' : (edits ++ [x])[j]? = some y := (List.getElem?_append_left hj).trans hy
          exact .inr ⟨j, y, q, hshort.concat hi, hy', hq, hvalue⟩
      · rw [List.getElem?_eq_none hnew, Option.getD_none]
        exact .inr ⟨edits.length, x, p,
          lastShort_concat_of_le getElem?_valueCounts_length length_valueCounts hnew hi,
          List.getElem?_concat_length, hp, rfl⟩

/-- Values after edits, told place by place. -/
structure ByPlace (values : List Value) (edits : List Edit) (result : List Value) : Prop where
  /-- There is one value for each placeholder of the last template. -/
  length_eq : (valueCounts values edits).getLast? = some result.length
  /-- What always had its place is the value from the start, in that place. -/
  kept : ∀ i, (∀ c ∈ valueCounts values edits, i < c) → result[i]? = values[i]?
  /-- What was last missing at index `j` is the default that the edit after it put there. -/
  renewed : ∀ i j, i < result.length → LastShort (valueCounts values edits) i j →
    ∃ x p, edits[j]? = some x ∧ x.reading.placeholders[i]? = some p
      ∧ result[i]? = some (x.engine.standIn p)
  /-- There is no third way. -/
  kept_or_renewed : ∀ i, i < result.length →
    (∀ c ∈ valueCounts values edits, i < c) ∨ ∃ j, LastShort (valueCounts values edits) i j

/-- Whatever edits a template goes through, values stay in their places until a template has no
such place, and a place that comes back has the default of the template that brings it. -/
theorem syncAll_byPlace (values : List Value) (edits : List Edit) :
    ByPlace values edits (syncAll values edits) := by
  have hlast : (valueCounts values edits).getLast? = some (syncAll values edits).length := by
    rw [List.getLast?_eq_getElem?, length_valueCounts, Nat.add_sub_cancel]
    exact getElem?_valueCounts_length
  refine ⟨hlast, ?_, ?_, ?_⟩
  · intro i hall
    have hi := hall _ (List.mem_of_getLast? hlast)
    rcases syncAll_cases values edits hi with ⟨-, hkept⟩ | ⟨j, -, -, hshort, -⟩
    · exact hkept
    · obtain ⟨c, hc, hle⟩ := hshort.short
      exact absurd (hall c (List.mem_of_getElem? hc)) (Nat.not_lt_of_le hle)
  · intro i j hi hshort
    rcases syncAll_cases values edits hi with ⟨hall, -⟩ | ⟨j', x, p, hshort', hx, hp, hvalue⟩
    · obtain ⟨c, hc, hle⟩ := hshort.short
      exact absurd (hall c (List.mem_of_getElem? hc)) (Nat.not_lt_of_le hle)
    · obtain rfl := hshort.unique hshort'
      exact ⟨x, p, hx, hp, hvalue⟩
  · intro i hi
    rcases syncAll_cases values edits hi with ⟨hall, -⟩ | ⟨j, -, -, hshort, -⟩
    · exact .inl hall
    · exact .inr ⟨j, hshort⟩

/-- The second value is lost by an edit that has no place for it, and the first one is not. -/
example :
    syncAll [.int 1, .int 2]
        [⟨.standard, "\x7bA\x7d"⟩, ⟨.standard, "\x7bA\x7d \x7bB:NumberInput:7\x7d"⟩]
      = [.int 1, .text "7"] := by decide +kernel

end QueryStencil
