/-
# `QueryStencil.Proofs.Template.Occurrence` — the holes of a template, told by offsets

`pieces` finds holes by reading on: it takes a hole where one starts and goes
on after it, and where none starts it goes on after one character.  An
`Occurrence` is told without any reading: two braces at two offsets, neither
of them escaped, and no brace at all between them.

The two agree (`mem_holes_iff`): reading on skips no occurrence, because no
occurrence starts inside another one (`Occurrence.eq_of_overlap`), and finds
nothing else.  So the holes come in order and apart (`holes_pairwise`), and each
is the stretch of the text between its offsets (`StandsIn.source_eq_slice`).
-/
import QueryStencil.Template.Piece

namespace QueryStencil.Template

/-! ## Escapes

A brace is escaped by the character directly before it, whatever stands before
that one.  A reader carries this as a flag, and `escapedAfter` is the flag
after a stretch of text. -/

/-- A backslash stands directly before offset `i`. -/
def Escaped (cs : List Char) (i : Nat) : Prop := 0 < i ∧ cs[i - 1]? = some '\\'

instance (cs : List Char) (i : Nat) : Decidable (Escaped cs i) :=
  inferInstanceAs (Decidable (_ ∧ _))

/-- `c` stands at offset `i`, and no backslash directly before it. -/
def LiveAt (c : Char) (cs : List Char) (i : Nat) : Prop := cs[i]? = some c ∧ ¬ Escaped cs i

instance (c : Char) (cs : List Char) (i : Nat) : Decidable (LiveAt c cs i) :=
  inferInstanceAs (Decidable (_ ∧ _))

theorem LiveAt.eq {b c : Char} {cs : List Char} {i : Nat} (hb : LiveAt b cs i)
    (hc : LiveAt c cs i) : b = c := Option.some.inj (hb.1.symm.trans hc.1)

/-- Whether a backslash stands directly before what follows a text; `escaped`
says whether one stands directly before the text. -/
def escapedAfter (escaped : Bool) : List Char → Bool
  | [] => escaped
  | c :: cs => escapedAfter (c = '\\') cs

theorem escapedAfter_append (escaped : Bool) (as bs : List Char) :
    escapedAfter escaped (as ++ bs) = escapedAfter (escapedAfter escaped as) bs := by
  induction as generalizing escaped with
  | nil => rfl
  | cons a as ih => exact ih _

@[simp] theorem escapedAfter_concat (escaped : Bool) (cs : List Char) (c : Char) :
    escapedAfter escaped (cs ++ [c]) = decide (c = '\\') := by
  rw [escapedAfter_append]
  rfl

/-- What stands before a text does not matter if there is any text. -/
theorem escapedAfter_of_ne_nil {cs : List Char} (h : cs ≠ []) (escaped escaped' : Bool) :
    escapedAfter escaped cs = escapedAfter escaped' cs := by
  cases cs with
  | nil => exact absurd rfl h
  | cons c cs => rfl

theorem escapedAfter_eq_false_iff {cs : List Char} :
    escapedAfter false cs = false ↔ cs.getLast? ≠ some '\\' := by
  rcases List.eq_nil_or_concat cs with rfl | ⟨front, c, rfl⟩
  · simp [escapedAfter]
  · rw [List.concat_eq_append, escapedAfter_concat, List.getLast?_concat]
    simp

/-- The flag looks at the last character only. -/
theorem escaped_iff_escapedAfter_take {cs : List Char} {i : Nat} (h : i ≤ cs.length) :
    Escaped cs i ↔ escapedAfter false (cs.take i) = true := by
  cases i with
  | zero => simp [Escaped, escapedAfter]
  | succ i =>
      have hi : i < cs.length := h
      rw [List.take_add_one, List.getElem?_eq_getElem hi, Option.toList_some,
        escapedAfter_concat]
      simp [Escaped, hi]

theorem escaped_append_iff (before cs : List Char) :
    Escaped (before ++ cs) before.length ↔ escapedAfter false before = true := by
  rw [escaped_iff_escapedAfter_take (by simp), List.take_left]

/-! ## The stretch between two offsets -/

/-- The text from offset `i` up to offset `j`. -/
def slice (cs : List Char) (i j : Nat) : List Char := (cs.take j).drop i

theorem slice_append (before middle after : List Char) {i j : Nat}
    (hi : i = before.length) (hj : j = i + middle.length) :
    slice (before ++ middle ++ after) i j = middle := by
  subst hi hj
  rw [slice, ← List.length_append, List.take_left, List.drop_left]

theorem take_append_slice (cs : List Char) {i j : Nat} (h : i ≤ j) :
    cs.take i ++ slice cs i j = cs.take j := by
  have : cs.take i = (cs.take j).take i := by rw [List.take_take, Nat.min_eq_left h]
  rw [slice, this, List.take_append_drop]

theorem slice_self_succ {cs : List Char} {i : Nat} {c : Char} (h : cs[i]? = some c) :
    slice cs i (i + 1) = [c] := by
  have hi : i < cs.length := (List.getElem?_eq_some_iff.mp h).1
  rw [slice, List.take_add_one, h, List.drop_append, List.drop_take]
  simp [Nat.min_eq_left (Nat.le_of_lt hi)]

theorem getElem?_slice (cs : List Char) (i j k : Nat) :
    (slice cs i j)[k]? = if i + k < j then cs[i + k]? else none := by
  simp [slice, List.getElem?_take]

/-! ## Occurrences -/

/-- At offset `i` an opening brace, just before offset `j` a closing one, both
not escaped, and between them no brace, escaped or not. -/
structure Occurrence (cs : List Char) (i j : Nat) : Prop where
  opener : LiveAt '{' cs i
  closer : LiveAt '}' cs (j - 1)
  wide : i < j - 1
  inner : ∀ k c, i < k → k < j - 1 → cs[k]? = some c → ¬ IsBrace c

/-- Where two occurrences overlap they are one. -/
theorem Occurrence.eq_of_overlap {cs : List Char} {i j i' j' : Nat} (h : Occurrence cs i j)
    (h' : Occurrence cs i' j') (hi : i ≤ i') (hj : i' < j) : i = i' ∧ j = j' := by
  have hii : i = i' := by
    by_cases hlt : i' < j - 1
    · by_cases heq : i = i'
      · exact heq
      · exact absurd (.inl rfl) (h.inner i' _ (by omega) hlt h'.opener.1)
    · have hclose : i' = j - 1 := by omega
      exact absurd (h'.opener.eq (hclose ▸ h.closer)) (by decide)
  subst hii
  -- the closing brace of the shorter one would stand inside the longer one
  rcases Nat.lt_trichotomy j j' with hjj | hjj | hjj
  · exact absurd (.inr rfl)
      (h'.inner (j - 1) _ h.wide (by have := h.wide; omega) h.closer.1)
  · exact ⟨rfl, hjj⟩
  · exact absurd (.inr rfl)
      (h.inner (j' - 1) _ h'.wide (by have := h'.wide; omega) h'.closer.1)

/-- Between two occurrences no offset is shared. -/
theorem Occurrence.apart {cs : List Char} {i j i' j' : Nat} (h : Occurrence cs i j)
    (h' : Occurrence cs i' j') (hne : i ≠ i') : j ≤ i' ∨ j' ≤ i := by
  rcases Nat.le_total i i' with hle | hle
  · by_cases hj : i' < j
    · exact absurd (h.eq_of_overlap h' hle hj).1 hne
    · exact .inl (by omega)
  · by_cases hj : i < j'
    · exact absurd (h'.eq_of_overlap h hle hj).1.symm hne
    · exact .inr (by omega)

namespace Hole

/-- The hole stands in a text: what is before it, its two braces with the
content between them, and what is after it. -/
def StandsIn (h : Hole) (cs : List Char) : Prop :=
  ∃ before after, cs = before ++ ('{' :: h.content ++ ['}']) ++ after
    ∧ h.start = before.length
    ∧ escapedAfter false before = false ∧ escapedAfter false h.content = false
    ∧ ∀ c ∈ h.content, ¬ IsBrace c

theorem StandsIn.slice_eq {h : Hole} {cs : List Char} (hs : h.StandsIn cs) :
    slice cs h.start h.stop = '{' :: h.content ++ ['}'] := by
  obtain ⟨before, after, rfl, hstart, -, -, -⟩ := hs
  exact slice_append _ _ _ hstart (by simp [stop, Nat.add_assoc])

/-- The content is what stands between the two braces. -/
theorem StandsIn.content_eq_slice {h : Hole} {cs : List Char} (hs : h.StandsIn cs) :
    h.content = slice cs (h.start + 1) (h.stop - 1) := by
  obtain ⟨before, after, rfl, hstart, -, -, -⟩ := hs
  have htext : before ++ ('{' :: h.content ++ ['}']) ++ after
      = (before ++ ['{']) ++ h.content ++ ('}' :: after) := by simp
  have hlast : h.stop - 1 = h.start + 1 + h.content.length := by
    rw [stop]
    omega
  rw [htext]
  refine (slice_append _ _ _ ?_ hlast).symm
  rw [List.length_append, List.length_singleton, hstart]

theorem StandsIn.source_eq_slice {h : Hole} {cs : List Char} (hs : h.StandsIn cs) :
    h.source.toList = slice cs h.start h.stop := by
  rw [hs.slice_eq, source, String.toList_ofList, Piece.source]

theorem StandsIn.stop_le {h : Hole} {cs : List Char} (hs : h.StandsIn cs) :
    h.stop ≤ cs.length := by
  obtain ⟨before, after, rfl, hstart, -, -, -⟩ := hs
  simp [stop, hstart]
  omega

theorem start_lt_stop (h : Hole) : h.start < h.stop := by
  simp [stop]
  omega

theorem StandsIn.occurrence {h : Hole} {cs : List Char} (hs : h.StandsIn cs) :
    Occurrence cs h.start h.stop := by
  obtain ⟨before, after, rfl, hstart, hb, hc, hbrace⟩ := hs
  have hlast : h.stop - 1 = (before ++ '{' :: h.content).length := by simp [stop, hstart]; omega
  have hopened : escapedAfter false (before ++ '{' :: h.content) = false := by
    rw [escapedAfter_append]
    exact hc
  have hwide : h.start < h.stop - 1 := by rw [stop]; omega
  refine ⟨⟨by simp [hstart], ?_⟩, ⟨?_, ?_⟩, hwide, ?_⟩
  · rw [hstart, List.append_assoc, escaped_append_iff, hb]
    simp
  · rw [hlast]
    simp
  · have heq : before ++ ('{' :: h.content ++ ['}']) ++ after
        = before ++ '{' :: h.content ++ '}' :: after := by simp
    rw [hlast, heq, escaped_append_iff, hopened]
    simp
  · intro k c hk hk' hkc
    refine hbrace c (List.mem_of_getElem? (i := k - before.length - 1) ?_)
    rw [← hkc]
    obtain ⟨m, rfl⟩ : ∃ m, k = before.length + 1 + m := ⟨k - before.length - 1, by omega⟩
    have hm : m < h.content.length := by simp [stop] at hk'; omega
    simp [List.getElem?_append, hm, Nat.add_assoc, Nat.add_comm 1 m]

end Hole

/-- Every occurrence is the place of a hole. -/
theorem Occurrence.exists_hole {cs : List Char} {i j : Nat} (h : Occurrence cs i j) :
    ∃ hole : Hole, hole.start = i ∧ hole.stop = j ∧ hole.StandsIn cs := by
  have hj : j - 1 < cs.length := (List.getElem?_eq_some_iff.mp h.closer.1).1
  have hwide := h.wide
  let content := slice cs (i + 1) (j - 1)
  have hopen : cs.take (i + 1) = cs.take i ++ ['{'] := by
    rw [← take_append_slice cs (Nat.le_succ i), slice_self_succ h.opener.1]
  have hbody : cs.take (j - 1) = cs.take i ++ '{' :: content := by
    rw [← take_append_slice cs (show i + 1 ≤ j - 1 by omega), hopen]
    simp [content]
  have hwhole : cs.take j = cs.take i ++ ('{' :: content ++ ['}']) := by
    have hclose : j = j - 1 + 1 := by omega
    rw [hclose, ← take_append_slice cs (Nat.le_succ (j - 1)), slice_self_succ h.closer.1, hbody]
    simp
  have hlength : content.length = j - 1 - (i + 1) := by simp [content, slice]; omega
  refine ⟨⟨i, content⟩, rfl, by simp [Hole.stop, hlength]; omega,
    cs.take i, cs.drop j, by rw [← hwhole, List.take_append_drop], by simp; omega, ?_, ?_, ?_⟩
  · have := h.opener.2
    rw [escaped_iff_escapedAfter_take (by omega)] at this
    simpa using this
  · have := h.closer.2
    rw [escaped_iff_escapedAfter_take (by omega), hbody, escapedAfter_append] at this
    simpa [escapedAfter] using this
  · intro c hc
    obtain ⟨k, hk⟩ := List.mem_iff_getElem?.mp hc
    rw [getElem?_slice] at hk
    split at hk
    · exact h.inner (i + 1 + k) c (by omega) (by assumption) hk
    · simp at hk

/-! ## Reading finds the occurrences -/

/-- A hole is closed by the first brace, if that is a closing one and not escaped. -/
theorem closing?_append {content : List Char} (rest : List Char) (escaped : Bool)
    (h : ∀ c ∈ content, ¬ IsBrace c) :
    closing? escaped (content ++ '}' :: rest)
      = if escapedAfter escaped content then none else some (content, rest) := by
  induction content generalizing escaped with
  | nil => cases escaped <;> rfl
  | cons c content ih =>
      obtain ⟨hc, hrest⟩ := List.forall_mem_cons.mp h
      have hopen : c ≠ '{' := fun he => hc (.inl he)
      have hclose : c ≠ '}' := fun he => hc (.inr he)
      rw [List.cons_append, closing?, if_neg hopen, if_neg hclose, ih _ hrest, escapedAfter]
      split <;> rfl

theorem not_isBrace_of_closing? {escaped : Bool} {cs content rest : List Char}
    (h : closing? escaped cs = some (content, rest)) : ∀ c ∈ content, ¬ IsBrace c := by
  induction cs generalizing escaped content with
  | nil => simp [closing?] at h
  | cons c cs ih =>
      rw [closing?] at h
      split at h
      · simp at h
      · split at h
        · split at h
          · simp at h
          · have hnil : content = [] := by simp at h; exact h.1
            simp [hnil]
        · rename_i hopen hclose
          obtain ⟨⟨found, after⟩, hf, hpair⟩ := Option.map_eq_some_iff.mp h
          obtain ⟨rfl, rfl⟩ := Prod.mk.injEq .. ▸ hpair
          exact List.forall_mem_cons.mpr ⟨fun hb => hb.elim hopen hclose, ih hf⟩

theorem escapedAfter_of_closing? {escaped : Bool} {cs content rest : List Char}
    (h : closing? escaped cs = some (content, rest)) : escapedAfter escaped content = false := by
  have hcs := eq_of_closing? h
  rw [hcs, closing?_append rest escaped (not_isBrace_of_closing? h)] at h
  by_cases hesc : escapedAfter escaped content = true
  · simp [hesc] at h
  · simpa using hesc

/-- Behind a hole no backslash stands. -/
theorem escapedAfter_hole (escaped : Bool) (content : List Char) :
    escapedAfter escaped ('{' :: content ++ ['}']) = false := by
  rw [escapedAfter_concat]
  rfl

/-- A hole that stands where a text goes on is closed there. -/
theorem Hole.StandsIn.closing?_eq {h : Hole} {before cs : List Char}
    (hs : h.StandsIn (before ++ cs)) (hstart : h.start = before.length) :
    escapedAfter false before = false ∧ ∃ rest, cs = '{' :: (h.content ++ '}' :: rest)
      ∧ closing? false (h.content ++ '}' :: rest) = some (h.content, rest) := by
  obtain ⟨before', rest, heq, hstart', hb, hc, hbrace⟩ := hs
  obtain ⟨rfl, hcs⟩ : before = before' ∧ cs = ('{' :: h.content ++ ['}']) ++ rest :=
    List.append_inj (by simpa using heq) (by rw [← hstart, hstart'])
  refine ⟨hb, rest, by simpa using hcs, ?_⟩
  rw [closing?_append rest false hbrace, hc]
  rfl

/-- Where two holes of a text overlap they are one. -/
theorem Hole.StandsIn.eq_of_overlap {h h' : Hole} {cs : List Char} (hs : h.StandsIn cs)
    (hs' : h'.StandsIn cs) (hi : h.start ≤ h'.start) (hj : h'.start < h.stop) : h = h' := by
  obtain ⟨hstart, hstop⟩ := hs.occurrence.eq_of_overlap hs'.occurrence hi hj
  have hslice := hs.slice_eq
  rw [hstart, hstop, hs'.slice_eq] at hslice
  have hcontent : h'.content = h.content := by simpa using hslice
  cases h
  cases h'
  simp_all

/-- One character on, where no hole starts at that character. -/
theorem mem_holesFrom_char {hole : Hole} {before cs : List Char} {c : Char} {ps : List Piece}
    (hne : hole.StandsIn (before ++ c :: cs) → hole.start ≠ before.length)
    (ih : hole ∈ holesFrom (before ++ [c]).length ps
      ↔ (before ++ [c]).length ≤ hole.start ∧ hole.StandsIn ((before ++ [c]) ++ cs)) :
    hole ∈ holesFrom before.length (.char c :: ps)
      ↔ before.length ≤ hole.start ∧ hole.StandsIn (before ++ c :: cs) := by
  rw [List.length_append, List.length_singleton, List.append_assoc, List.singleton_append] at ih
  rw [holesFrom, ih]
  constructor
  · rintro ⟨hle, hs⟩
    exact ⟨by omega, hs⟩
  · rintro ⟨hle, hs⟩
    have := hne hs
    exact ⟨by omega, hs⟩

/-- The holes that are read from some offset on are those that stand in the
whole text from that offset on. -/
theorem mem_holesFrom_iff (hole : Hole) (before cs : List Char) :
    hole ∈ holesFrom before.length (pieces (escapedAfter false before) cs)
      ↔ before.length ≤ hole.start ∧ hole.StandsIn (before ++ cs) := by
  generalize hesc : escapedAfter false before = escaped
  fun_induction pieces escaped cs generalizing before with
  | case1 escaped =>
      refine iff_of_false List.not_mem_nil ?_
      rintro ⟨hle, hs⟩
      have := hs.stop_le
      simp [Hole.stop] at this
      omega
  | case2 escaped c cs hc content rest hf ih =>
      obtain ⟨rfl, rfl⟩ := hc
      obtain rfl := eq_of_closing? hf
      let first : Hole := ⟨before.length, content⟩
      have htext : before ++ ('{' :: content ++ ['}']) ++ rest
          = before ++ '{' :: (content ++ '}' :: rest) := by simp
      have hfirst : first.StandsIn (before ++ '{' :: (content ++ '}' :: rest)) :=
        ⟨before, rest, htext.symm, rfl, hesc, escapedAfter_of_closing? hf,
          not_isBrace_of_closing? hf⟩
      have hih := ih (before ++ ('{' :: content ++ ['}'])) (by
        rw [escapedAfter_append, escapedAfter_hole])
      have hlength : (before ++ ('{' :: content ++ ['}'])).length = first.stop := by
        simp [first, Hole.stop]
        omega
      rw [htext, hlength] at hih
      rw [holesFrom, List.mem_cons]
      constructor
      · rintro (rfl | hmem)
        · exact ⟨Nat.le_refl _, hfirst⟩
        · obtain ⟨hle, hs⟩ := hih.mp hmem
          exact ⟨Nat.le_trans (Nat.le_of_lt first.start_lt_stop) hle, hs⟩
      · rintro ⟨hle, hs⟩
        by_cases hin : hole.start < first.stop
        · exact .inl (hfirst.eq_of_overlap hs hle hin).symm
        · exact .inr (hih.mpr ⟨by omega, hs⟩)
  | case3 escaped c cs hc hf ih =>
      obtain ⟨rfl, rfl⟩ := hc
      refine mem_holesFrom_char (fun hs hstart => ?_) (ih _ (by simp))
      -- a hole that started here would have been closed
      obtain ⟨-, rest, hcs, hclosed⟩ := hs.closing?_eq hstart
      rw [List.cons.injEq] at hcs
      rw [hcs.2, hclosed] at hf
      exact Option.some_ne_none _ hf
  | case4 escaped c cs hc ih =>
      refine mem_holesFrom_char (fun hs hstart => hc ?_) (ih _ (by simp))
      obtain ⟨hb, rest, hcs, -⟩ := hs.closing?_eq hstart
      rw [List.cons.injEq] at hcs
      exact ⟨hcs.1, hesc ▸ hb⟩

theorem mem_holes_iff_standsIn {template : String} {hole : Hole} :
    hole ∈ holes template ↔ hole.StandsIn template.toList := by
  have h := mem_holesFrom_iff hole [] template.toList
  simpa [holes, piecesOf, escapedAfter] using h

/-- The spans of the holes are the occurrences. -/
theorem mem_holes_iff {template : String} {i j : Nat} :
    (∃ hole ∈ holes template, hole.start = i ∧ hole.stop = j)
      ↔ Occurrence template.toList i j := by
  constructor
  · rintro ⟨hole, hmem, rfl, rfl⟩
    exact (mem_holes_iff_standsIn.mp hmem).occurrence
  · intro h
    obtain ⟨hole, hstart, hstop, hs⟩ := h.exists_hole
    exact ⟨hole, mem_holes_iff_standsIn.mpr hs, hstart, hstop⟩

/-! ## The holes come in order -/

theorem le_start_of_mem_holesFrom {offset : Nat} {ps : List Piece} {hole : Hole}
    (h : hole ∈ holesFrom offset ps) : offset ≤ hole.start := by
  fun_induction holesFrom offset ps with
  | case1 => exact absurd h List.not_mem_nil
  | case2 offset c rest ih => exact Nat.le_trans (Nat.le_succ _) (ih h)
  | case3 offset content rest ih =>
      rcases List.mem_cons.mp h with rfl | h
      · exact Nat.le_refl _
      · exact Nat.le_trans (by omega) (ih h)

theorem holesFrom_pairwise (offset : Nat) (ps : List Piece) :
    (holesFrom offset ps).Pairwise fun h h' => h.stop ≤ h'.start := by
  fun_induction holesFrom offset ps with
  | case1 => exact .nil
  | case2 offset c rest ih => exact ih
  | case3 offset content rest ih =>
      exact .cons (fun hole h => le_start_of_mem_holesFrom h) ih

/-- Each hole ends before the next one starts. -/
theorem holes_pairwise (template : String) :
    (holes template).Pairwise fun h h' => h.stop ≤ h'.start :=
  holesFrom_pairwise 0 _

end QueryStencil.Template
