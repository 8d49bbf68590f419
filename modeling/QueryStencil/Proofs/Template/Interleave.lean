/-
# `QueryStencil.Proofs.Template.Interleave` — the text between spans

Spans that ascend cut a text into gaps, one more than there are spans, and
`interleave` puts other texts between the gaps.  With the spans' own texts it
gives the text back (`interleave_gaps_slices`).  Replacing one span of a text
that is kept up to the end of that span changes nothing before it
(`overwrite_take_append`), which is why spans can be replaced one by one from
the right by the offsets of the whole text.
-/
import QueryStencil.Engine.Filling
import QueryStencil.Proofs.Template.Occurrence

namespace QueryStencil.Template

/-- Spans one after the other, from an offset on and within a text. -/
def Ascending (cs : List Char) (offset : Nat) : List (Nat × Nat) → Prop
  | [] => offset ≤ cs.length
  | (start, stop) :: spans => offset ≤ start ∧ start ≤ stop ∧ Ascending cs stop spans

/-- What stands before, between and after spans, from an offset on. -/
def gaps (cs : List Char) (offset : Nat) : List (Nat × Nat) → List (List Char)
  | [] => [cs.drop offset]
  | (start, stop) :: spans => slice cs offset start :: gaps cs stop spans

theorem length_gaps (cs : List Char) (offset : Nat) (spans : List (Nat × Nat)) :
    (gaps cs offset spans).length = spans.length + 1 := by
  induction spans generalizing offset with
  | nil => rfl
  | cons span spans ih => rw [gaps, List.length_cons, ih, List.length_cons]

/-- Gaps with texts between them, from left to right. -/
def interleave : List (List Char) → List (List Char) → List Char
  | gap :: gaps, text :: texts => gap ++ text ++ interleave gaps texts
  | gaps, _ => gaps.flatten

theorem interleave_nil (gaps : List (List Char)) : interleave gaps [] = gaps.flatten := by
  cases gaps with
  | nil => rfl
  | cons gap gaps => rfl

/-- One of the texts, with what is interleaved in front of it and behind it. -/
theorem interleave_eq_append {gaps texts : List (List Char)}
    (hlength : gaps.length = texts.length + 1) {i : Nat} {text : List Char}
    (h : texts[i]? = some text) :
    interleave gaps texts
      = interleave (gaps.take (i + 1)) (texts.take i) ++ text
        ++ interleave (gaps.drop (i + 1)) (texts.drop (i + 1)) := by
  induction texts generalizing gaps i with
  | nil => exact nomatch h
  | cons first texts ih =>
      cases gaps with
      | nil => exact absurd hlength (Nat.succ_ne_zero _).symm
      | cons gap gaps =>
          cases i with
          | zero =>
              obtain rfl : first = text := Option.some.inj h
              simp only [interleave, List.take_succ_cons, List.take_zero, List.drop_succ_cons,
                List.drop_zero, List.flatten_singleton]
          | succ i =>
              have hrest := ih (Nat.succ.inj hlength) h
              simp only [interleave, List.take_succ_cons, List.drop_succ_cons, hrest,
                List.append_assoc]

variable {cs : List Char}

/-- No span starts before the offset. -/
theorem Ascending.le_start {spans : List (Nat × Nat)} {offset : Nat}
    (h : Ascending cs offset spans) : ∀ s ∈ spans, offset ≤ s.1 := by
  induction spans generalizing offset with
  | nil => exact fun s hs => absurd hs List.not_mem_nil
  | cons span spans ih =>
      obtain ⟨hoffset, hspan, hrest⟩ := h
      intro s hs
      rcases List.mem_cons.mp hs with rfl | hs
      · exact hoffset
      · exact Nat.le_trans hoffset (Nat.le_trans hspan (ih hrest s hs))

/-- The rule for ascending spans, from the order of any two of them. -/
theorem ascending_of_pairwise {spans : List (Nat × Nat)} {offset : Nat}
    (hlength : offset ≤ cs.length) (hoffset : ∀ s ∈ spans, offset ≤ s.1)
    (hspan : ∀ s ∈ spans, s.1 ≤ s.2 ∧ s.2 ≤ cs.length)
    (hpair : spans.Pairwise fun s s' => s.2 ≤ s'.1) : Ascending cs offset spans := by
  induction spans generalizing offset with
  | nil => exact hlength
  | cons span spans ih =>
      obtain ⟨hfirst, hrest⟩ := List.pairwise_cons.mp hpair
      obtain ⟨hle, hstop⟩ := hspan span List.mem_cons_self
      exact ⟨hoffset span List.mem_cons_self, hle,
        ih hstop hfirst (fun s hs => hspan s (List.mem_cons_of_mem _ hs)) hrest⟩

theorem drop_eq_slice_append (cs : List Char) {i j : Nat} (h : i ≤ j) :
    cs.drop i = slice cs i j ++ cs.drop j := by
  have hsplit : cs.drop i = (cs.take j ++ cs.drop j).drop i := by rw [List.take_append_drop]
  by_cases hj : j ≤ cs.length
  · rw [hsplit, List.drop_append_of_le_length (by simp; omega), slice]
  · rw [slice, List.take_of_length_le (by omega), List.drop_eq_nil_of_le (by omega : cs.length ≤ j),
      List.append_nil]

/-- With the spans' own texts between them the gaps are the text. -/
theorem interleave_gaps_slices {spans : List (Nat × Nat)} {offset : Nat}
    (h : Ascending cs offset spans) :
    interleave (gaps cs offset spans) (spans.map fun s => slice cs s.1 s.2) = cs.drop offset := by
  induction spans generalizing offset with
  | nil => simp [gaps, interleave]
  | cons span spans ih =>
      obtain ⟨hoffset, hspan, hrest⟩ := h
      rw [gaps, List.map_cons, interleave, ih hrest, List.append_assoc,
        ← drop_eq_slice_append cs hspan, ← drop_eq_slice_append cs hoffset]

/-- A character that spans cover wherever it stands is in no gap. -/
theorem not_mem_gaps {spans : List (Nat × Nat)} {offset : Nat} {c : Char}
    (hascending : Ascending cs offset spans)
    (h : ∀ i, offset ≤ i → cs[i]? = some c → ∃ s ∈ spans, s.1 ≤ i ∧ i < s.2) :
    ∀ gap ∈ gaps cs offset spans, c ∉ gap := by
  induction spans generalizing offset with
  | nil =>
      intro gap hgap hc
      obtain rfl := List.mem_singleton.mp hgap
      obtain ⟨k, hk⟩ := List.mem_iff_getElem?.mp hc
      rw [List.getElem?_drop] at hk
      obtain ⟨s, hs, -⟩ := h _ (Nat.le_add_right offset k) hk
      exact absurd hs List.not_mem_nil
  | cons span spans ih =>
      obtain ⟨hoffset, hspan, hrest⟩ := hascending
      intro gap hgap
      rcases List.mem_cons.mp hgap with rfl | hgap
      · intro hc
        obtain ⟨k, hk⟩ := List.mem_iff_getElem?.mp hc
        rw [getElem?_slice] at hk
        split at hk
        · obtain ⟨s, hs, hle, -⟩ := h _ (Nat.le_add_right offset k) hk
          rcases List.mem_cons.mp hs with rfl | hs
          · omega
          · have := hrest.le_start s hs
            omega
        · exact nomatch hk
      · refine ih hrest (fun i hi hc => ?_) gap hgap
        obtain ⟨s, hs, hle, hlt⟩ := h i (Nat.le_trans hoffset (Nat.le_trans hspan hi)) hc
        rcases List.mem_cons.mp hs with rfl | hs
        · omega
        · exact ⟨s, hs, hle, hlt⟩

/-! ## Texts one after the other -/

theorem Ascending.le_length {spans : List (Nat × Nat)} {offset : Nat}
    (h : Ascending cs offset spans) : offset ≤ cs.length := by
  induction spans generalizing offset with
  | nil => exact h
  | cons span spans ih =>
      obtain ⟨hoffset, hspan, hrest⟩ := h
      exact Nat.le_trans hoffset (Nat.le_trans hspan (ih hrest))

/-- A span in a text that is preceded by `n` more characters. -/
def shiftSpan (n : Nat) (s : Nat × Nat) : Nat × Nat := (n + s.1, n + s.2)

theorem slice_append_left (ds : List Char) (i : Nat) {j : Nat} (h : j ≤ cs.length) :
    slice (cs ++ ds) i j = slice cs i j := by
  rw [slice, slice, List.take_append_of_le_length h]

theorem slice_length_add_append (cs ds : List Char) (i j : Nat) :
    slice (cs ++ ds) (cs.length + i) (cs.length + j) = slice ds i j := by
  rw [slice, List.take_length_add_append, List.drop_length_add_append, slice]

theorem gaps_shiftSpan (cs ds : List Char) (offset : Nat) (spans : List (Nat × Nat)) :
    gaps (cs ++ ds) (cs.length + offset) (spans.map (shiftSpan cs.length))
      = gaps ds offset spans := by
  induction spans generalizing offset with
  | nil => rw [List.map_nil, gaps, gaps, List.drop_length_add_append]
  | cons span spans ih =>
      rw [List.map_cons, shiftSpan, gaps, gaps, slice_length_add_append, ih]

theorem interleave_append_cons (front gap : List Char) (gaps texts : List (List Char)) :
    interleave ((front ++ gap) :: gaps) texts = front ++ interleave (gap :: gaps) texts := by
  cases texts with
  | nil => simp only [interleave, List.flatten_cons, List.append_assoc]
  | cons text texts => simp only [interleave, List.append_assoc]

/-- What precedes the first span of the second text precedes all of it. -/
theorem interleave_gaps_seam (ds : List Char) {offset : Nat} (h : offset ≤ cs.length)
    (spans : List (Nat × Nat)) (texts : List (List Char)) :
    interleave (gaps (cs ++ ds) offset (spans.map (shiftSpan cs.length))) texts
      = cs.drop offset ++ interleave (gaps ds 0 spans) texts := by
  cases spans with
  | nil =>
      rw [List.map_nil, gaps, gaps, List.drop_append_of_le_length h, List.drop_zero,
        interleave_append_cons]
  | cons span spans =>
      have hgap : slice (cs ++ ds) offset (cs.length + span.1)
          = cs.drop offset ++ slice ds 0 span.1 := by
        rw [slice, List.take_length_add_append, List.drop_append_of_le_length h, slice,
          List.drop_zero]
      rw [List.map_cons, shiftSpan, gaps, gaps, gaps_shiftSpan, hgap, interleave_append_cons]

/-- Two texts one after the other, each with its spans replaced. -/
theorem interleave_gaps_append (ds : List Char) {offset : Nat} {spans : List (Nat × Nat)}
    {texts : List (List Char)} (hascending : Ascending cs offset spans)
    (hlength : texts.length = spans.length) (spans' : List (Nat × Nat))
    (texts' : List (List Char)) :
    interleave (gaps (cs ++ ds) offset (spans ++ spans'.map (shiftSpan cs.length)))
        (texts ++ texts')
      = interleave (gaps cs offset spans) texts ++ interleave (gaps ds 0 spans') texts' := by
  induction spans generalizing offset texts with
  | nil =>
      obtain rfl := List.length_eq_zero_iff.mp hlength
      rw [List.nil_append, List.nil_append, interleave_gaps_seam ds hascending, interleave_nil,
        gaps, List.flatten_singleton]
  | cons span spans ih =>
      obtain ⟨-, hspan, hrest⟩ := hascending
      cases texts with
      | nil => exact absurd hlength (Nat.succ_ne_zero _).symm
      | cons text texts =>
          have hstart : span.1 ≤ cs.length := Nat.le_trans hspan hrest.le_length
          rw [List.cons_append, List.cons_append, gaps, gaps, interleave, interleave,
            ih hrest (Nat.succ.inj hlength), slice_append_left ds offset hstart]
          simp only [List.append_assoc]

/-! ## One span replaced -/

/-- The span of a placeholder replaced, in a text that is kept up to the end of the span. -/
theorem Placeholder.overwrite_take_append (p : Placeholder) (replacement rest : List Char)
    (hspan : p.start ≤ p.stop) (hstop : p.stop ≤ cs.length) :
    p.overwrite replacement (cs.take p.stop ++ rest) = cs.take p.start ++ replacement ++ rest := by
  have hlength : (cs.take p.stop).length = p.stop := by simp; omega
  have hdrop : (cs.take p.stop ++ rest).drop p.stop = rest := by
    rw [List.drop_append_of_le_length (by omega), List.drop_eq_nil_of_le (by omega),
      List.nil_append]
  have htake : (cs.take p.stop ++ rest).take p.start = cs.take p.start := by
    rw [List.take_append_of_le_length (by omega), List.take_take, Nat.min_eq_left hspan]
  rw [Placeholder.overwrite, hdrop, htake]

end QueryStencil.Template
