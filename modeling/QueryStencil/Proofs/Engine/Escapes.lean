/-
# `QueryStencil.Proofs.Engine.Escapes` — escapes in values

A backslash before a brace is how a template writes a literal brace.  It is
undone when all values are in, in the text as a whole, and so it is undone in
the values too: the text `\{` that a caller supplies ends up as `{`.

How much that changes is told exactly.  What is written for built-in kinds is
sealed, so the whole splits into the gaps and the written values, each with
its own escapes undone (`toList_text_fill_apart`).  A query has its values as
they were written if and only if no written value has an escape in it, and two
texts make the same query if and only if they are the same without escapes
(`fill_eq_fillApart_iff`).
-/
import QueryStencil.Proofs.Engine.Delimiters
import QueryStencil.Proofs.Engine.Noninterference

namespace QueryStencil

open Template

namespace Template

/-! ## Gaps and texts -/

/-- Between gaps, sealed texts keep their escapes to themselves. -/
theorem unescape_interleave {gaps texts : List (List Char)}
    (hlength : gaps.length = texts.length + 1) (h : ∀ text ∈ texts, Sealed text) :
    unescape (interleave gaps texts)
      = interleave (gaps.map unescape) (texts.map unescape) := by
  induction texts generalizing gaps with
  | nil =>
      obtain ⟨gap, rfl⟩ := List.length_eq_one_iff.mp hlength
      simp only [interleave_nil, List.map_cons, List.map_nil, List.flatten_singleton]
  | cons text texts ih =>
      cases gaps with
      | nil => exact absurd hlength (Nat.succ_ne_zero _).symm
      | cons gap gaps =>
          obtain ⟨htext, hrest⟩ := List.forall_mem_cons.mp h
          rw [interleave, htext.unescape_append, ih (Nat.succ.inj hlength) hrest]
          rfl

theorem length_interleave_unescape_le (gaps texts : List (List Char)) :
    (interleave gaps (texts.map unescape)).length ≤ (interleave gaps texts).length := by
  induction texts generalizing gaps with
  | nil => exact Nat.le_refl _
  | cons text texts ih =>
      cases gaps with
      | nil => exact Nat.le_refl _
      | cons gap gaps =>
          have htext := length_unescape_le text
          have hrest := ih gaps
          simp only [List.map_cons, interleave, List.length_append]
          omega

/-- Since texts only get shorter, none of them is changed if the whole is not. -/
theorem interleave_unescape_eq_iff {gaps texts : List (List Char)}
    (hlength : gaps.length = texts.length + 1) :
    interleave gaps (texts.map unescape) = interleave gaps texts
      ↔ ∀ text ∈ texts, unescape text = text := by
  induction texts generalizing gaps with
  | nil => exact iff_of_true rfl fun text htext => absurd htext List.not_mem_nil
  | cons text texts ih =>
      cases gaps with
      | nil => exact absurd hlength (Nat.succ_ne_zero _).symm
      | cons gap gaps =>
          rw [List.forall_mem_cons, ← ih (Nat.succ.inj hlength), List.map_cons, interleave,
            interleave, List.append_assoc, List.append_assoc, List.append_cancel_left_eq]
          constructor
          · intro h
            have hsum := congrArg List.length h
            have htext := length_unescape_le text
            have hrest := length_interleave_unescape_le gaps texts
            rw [List.length_append, List.length_append] at hsum
            exact List.append_inj h (by omega)
          · rintro ⟨htext, hrest⟩
            rw [htext, hrest]

/-- One text decides whether two interleavings that agree elsewhere are the same. -/
theorem interleave_set_eq_iff {gaps texts : List (List Char)}
    (hlength : gaps.length = texts.length + 1) {k : Nat} (hk : k < texts.length)
    (as bs : List Char) :
    interleave gaps (texts.set k as) = interleave gaps (texts.set k bs) ↔ as = bs := by
  induction texts generalizing gaps k with
  | nil => exact absurd hk (Nat.not_lt_zero k)
  | cons text texts ih =>
      cases gaps with
      | nil => exact absurd hlength (Nat.succ_ne_zero _).symm
      | cons gap gaps =>
          cases k with
          | zero =>
              rw [List.set_cons_zero, List.set_cons_zero, interleave, interleave,
                List.append_cancel_right_eq, List.append_cancel_left_eq]
          | succ k =>
              rw [List.set_cons_succ, List.set_cons_succ, interleave, interleave,
                List.append_cancel_left_eq]
              exact ih (Nat.succ.inj hlength) (Nat.lt_of_succ_lt_succ hk)

end Template

namespace Engine

variable {e : Engine} {template : String} {values : List Value}

/-! ## Written values between the segments of a template -/

/-- The value of a placeholder as its kind writes it. -/
def written (e : Engine) (values : List Value) (p : Placeholder) : List Char :=
  (e.registry.render p.kind (e.valueOf values p)).toList

/-- The template with its own escapes undone, and the values as they are written. -/
def fillApart (e : Engine) (template : String) (values : List Value) : String :=
  String.ofList (interleave ((e.segments template).map unescape)
    ((e.read template).placeholders.map (e.written values)))

theorem sealed_written (hregistry : e.registry.BuiltinOnly) (values : List Value)
    (p : Placeholder) : Sealed (e.written values p) :=
  (interchangeable_render hregistry (.inr rfl)).sealed_left

/-- What is accepted stands as it is written. -/
theorem map_rendition_of_accepted {ps : List Placeholder}
    (h : ∀ p ∈ ps, e.rejection? p (e.valueOf values p) = none) :
    (ps.map fun p => (e.rendition p (e.valueOf values p)).toList) = ps.map (e.written values) := by
  refine List.map_congr_left fun p hp => ?_
  rw [rendition_of_rejection?_eq_none (h p hp), written]

/-- A query without errors: its segments and its written values, each without its escapes. -/
theorem toList_text_fill_apart (hregistry : e.registry.BuiltinOnly)
    (hvalid : (e.read template).IsValid) (hfilled : (e.fill template values).errors = []) :
    (e.fill template values).text.toList
      = interleave ((e.segments template).map unescape)
          (((e.read template).placeholders.map (e.written values)).map unescape) := by
  have haccepted := (errors_fill_eq_nil_iff hvalid values).mp hfilled
  rw [toList_text_fill_spliced hvalid, spliced, map_rendition_of_accepted haccepted]
  refine unescape_interleave ?_ ?_
  · rw [length_segments, List.length_map]
  · intro text htext
    obtain ⟨p, -, rfl⟩ := List.mem_map.mp htext
    exact sealed_written hregistry values p

/-- The values stand in a query as they were written exactly if none of them has an escape. -/
theorem text_fill_eq_fillApart_iff (hregistry : e.registry.BuiltinOnly)
    (hvalid : (e.read template).IsValid) (hfilled : (e.fill template values).errors = []) :
    (e.fill template values).text = e.fillApart template values
      ↔ ∀ p ∈ (e.read template).placeholders, EscapeFree (e.written values p) := by
  have hlength : ((e.segments template).map unescape).length
      = ((e.read template).placeholders.map (e.written values)).length + 1 := by
    rw [List.length_map, List.length_map, e.length_segments]
  rw [← String.toList_inj, toList_text_fill_apart hregistry hvalid hfilled, fillApart,
    String.toList_ofList, interleave_unescape_eq_iff hlength, List.forall_mem_map]
  exact forall_congr' fun p => forall_congr' fun _ => unescape_eq_self_iff

/-! ## Another text for a placeholder -/

/-- The placeholder takes any value as free text, by its kind or because that is not known. -/
def WritesText (e : Engine) (p : Placeholder) : Prop :=
  ∀ k ∈ e.registry.find? p.kind, k.shape.IsTextual

theorem rejection?_of_writesText {p : Placeholder} (h : e.WritesText p) (v : Value) :
    e.rejection? p v = none := by
  cases hk : e.registry.find? p.kind with
  | none => simp [rejection?, hk]
  | some k => exact rejection?_of_isTextual ⟨k, hk, h k hk⟩ v

theorem render_of_writesText {p : Placeholder} (h : e.WritesText p) (v : Value) :
    e.registry.render p.kind v = v.literal := by
  rw [Registry.render]
  split
  · rename_i k hk
    exact (h k hk).render_eq v
  · rfl

theorem toList_render_of_writesText {p : Placeholder} (h : e.WritesText p) (a : String) :
    (e.registry.render p.kind (.text a)).toList = Sql.quoted a.toList := by
  rw [render_of_writesText h, Value.literal, Sql.toList_literal]
  rfl

theorem not_isMissing_text {a : String} (h : a ≠ "") : ¬ (Value.text a).IsMissing := by
  rintro (hnull | htext)
  · exact Value.noConfusion hnull
  · exact h (Value.text.inj htext)

theorem valueOf_set_self {p : Placeholder} (hlt : p.ordinal < values.length) {v : Value}
    (hv : ¬ v.IsMissing) : e.valueOf (values.set p.ordinal v) p = v := by
  rw [valueOf, List.getElem?_set_self hlt, Option.getD_some, if_neg hv]

theorem valueOf_set_of_ne {k : Nat} {p : Placeholder} (h : k ≠ p.ordinal) (v : Value) :
    e.valueOf (values.set k v) p = e.valueOf values p := by
  refine valueOf_congr ?_
  rw [List.getElem?_set_ne h]

theorem getElem?_ordinal {p : Placeholder} (hp : p ∈ (e.read template).placeholders) :
    (e.read template).placeholders[p.ordinal]? = some p := by
  obtain ⟨k, hk⟩ := List.mem_iff_getElem?.mp hp
  rw [e.ordinal_of_getElem?_placeholdersIn hk, hk]

/-- With another value in one place, the written values are the same in all others. -/
theorem map_written_set {p : Placeholder} (hp : p ∈ (e.read template).placeholders)
    (hlt : p.ordinal < values.length) {v : Value} (hv : ¬ v.IsMissing) :
    (e.read template).placeholders.map (e.written (values.set p.ordinal v))
      = ((e.read template).placeholders.map (e.written values)).set p.ordinal
          (e.registry.render p.kind v).toList := by
  have hplace := getElem?_ordinal hp
  refine List.ext_getElem? fun j => ?_
  rw [List.getElem?_set, List.getElem?_map, List.getElem?_map, List.length_map]
  split
  · rename_i hj
    rw [if_pos (List.getElem?_eq_some_iff.mp hplace).1, ← hj, hplace, Option.map_some, written,
      valueOf_set_self hlt hv]
  · rename_i hj
    cases hq : (e.read template).placeholders[j]? with
    | none => rfl
    | some q =>
        have hne : p.ordinal ≠ q.ordinal := by
          rwa [e.ordinal_of_getElem?_placeholdersIn hq]
        rw [Option.map_some, Option.map_some, written, written, valueOf_set_of_ne hne]

/-- Another text is no reason to refuse anything. -/
theorem errors_fill_set (hvalid : (e.read template).IsValid)
    (hfilled : (e.fill template values).errors = []) {p : Placeholder}
    (hp : p ∈ (e.read template).placeholders) (hwrites : e.WritesText p) (v : Value) :
    (e.fill template (values.set p.ordinal v)).errors = [] := by
  have haccepted := (errors_fill_eq_nil_iff hvalid values).mp hfilled
  refine (errors_fill_eq_nil_iff hvalid _).mpr fun q hq => ?_
  by_cases hne : p.ordinal = q.ordinal
  · have hsame := getElem?_ordinal hp
    rw [hne, getElem?_ordinal hq] at hsame
    obtain rfl := Option.some.inj hsame
    exact rejection?_of_writesText hwrites _
  · rw [valueOf_set_of_ne hne]
    exact haccepted q hq

theorem toList_text_fill_set (hregistry : e.registry.BuiltinOnly)
    (hvalid : (e.read template).IsValid) (hfilled : (e.fill template values).errors = [])
    {p : Placeholder} (hp : p ∈ (e.read template).placeholders) (hwrites : e.WritesText p)
    (hlt : p.ordinal < values.length) {a : String} (ha : a ≠ "") :
    (e.fill template (values.set p.ordinal (.text a))).text.toList
      = interleave ((e.segments template).map unescape)
          ((((e.read template).placeholders.map (e.written values)).map unescape).set p.ordinal
            (Sql.quoted (unescape a.toList))) := by
  rw [toList_text_fill_apart hregistry hvalid (errors_fill_set hvalid hfilled hp hwrites _),
    map_written_set hp hlt (not_isMissing_text ha), List.map_set,
    toList_render_of_writesText hwrites, unescape_quoted]

/-- Two texts make the same query exactly if they are the same without escapes. -/
theorem text_fill_set_eq_iff (hregistry : e.registry.BuiltinOnly)
    (hvalid : (e.read template).IsValid) (hfilled : (e.fill template values).errors = [])
    {p : Placeholder} (hp : p ∈ (e.read template).placeholders) (hwrites : e.WritesText p)
    (hlt : p.ordinal < values.length) {a b : String} (ha : a ≠ "") (hb : b ≠ "") :
    (e.fill template (values.set p.ordinal (.text a))).text
        = (e.fill template (values.set p.ordinal (.text b))).text
      ↔ unescape a.toList = unescape b.toList := by
  have hplace : p.ordinal
      < (((e.read template).placeholders.map (e.written values)).map unescape).length := by
    rw [List.length_map, List.length_map]
    exact (List.getElem?_eq_some_iff.mp (getElem?_ordinal hp)).1
  have hlength : ((e.segments template).map unescape).length
      = (((e.read template).placeholders.map (e.written values)).map unescape).length + 1 := by
    rw [List.length_map, List.length_map, List.length_map, length_segments]
  rw [← String.toList_inj, toList_text_fill_set hregistry hvalid hfilled hp hwrites hlt ha,
    toList_text_fill_set hregistry hvalid hfilled hp hwrites hlt hb,
    interleave_set_eq_iff hlength hplace]
  constructor
  · exact Sql.quoted_injective
  · intro h
    rw [h]

/-! ## What escapes do to values -/

/-- A query without errors has its values as they were written if and only if no
written value has an escape in it, and it tells two texts in one place apart if
and only if they differ in more than escapes. -/
theorem fill_keeps_values_iff (e : Engine) (template : String) (values : List Value)
    (hregistry : e.registry.BuiltinOnly) (hvalid : (e.read template).IsValid)
    (hfilled : (e.fill template values).errors = []) :
    ((e.fill template values).text = e.fillApart template values
        ↔ ∀ p ∈ (e.read template).placeholders, EscapeFree (e.written values p))
      ∧ ∀ p ∈ (e.read template).placeholders, e.WritesText p → p.ordinal < values.length →
          ∀ a b, a ≠ "" → b ≠ "" →
            ((e.fill template (values.set p.ordinal (.text a))).text
                = (e.fill template (values.set p.ordinal (.text b))).text
              ↔ unescape a.toList = unescape b.toList) := by
  constructor
  · exact text_fill_eq_fillApart_iff hregistry hvalid hfilled
  · intro p hp hwrites hlt a b ha hb
    exact text_fill_set_eq_iff hregistry hvalid hfilled hp hwrites hlt ha hb

/-- Braces and backslashes in a value, but not one right before the other. -/
theorem fill_keeps_values_apart :
    let template := "\\\x7b \x7bA\x7d = \x7bN:NumberInput\x7d"
    let values := [.text "it's \x7bx\\y\x7d", .int 3]
    standard.registry.BuiltinOnly ∧ (standard.read template).IsValid
      ∧ (standard.fill template values).errors = []
      ∧ (standard.fill template values).text = standard.fillApart template values
      ∧ standard.fillApart template values = "\x7b 'it''s \x7bx\\y\x7d' = 3"
      ∧ (standard.fill template (values.set 0 (.text "\x7b"))).text
          ≠ (standard.fill template (values.set 0 (.text "\\"))).text := by
  intro template values
  have hregistry := builtinOnly_standard
  have hvalid : (standard.read template).IsValid := by decide +kernel
  have hfilled : (standard.fill template values).errors = [] := by decide +kernel
  obtain ⟨hkeeps, htells⟩ := fill_keeps_values_iff standard template values hregistry hvalid hfilled
  refine ⟨hregistry, hvalid, hfilled, hkeeps.mpr (by decide +kernel), by decide +kernel, ?_⟩
  intro hsame
  let first : Placeholder := ⟨⟨"A", "StringInput", ""⟩, 0, "\x7bA\x7d", 3, 6⟩
  have hfirst : first ∈ (standard.read template).placeholders := by decide +kernel
  have hwrites : standard.WritesText first := by
    intro k hk
    obtain rfl : Kind.freeText = k := Option.some.inj hk
    exact .text
  have hlt : first.ordinal < values.length := by decide
  have halike := (htells first hfirst hwrites hlt "\x7b" "\\" (by decide) (by decide)).mp hsame
  exact absurd halike (by decide)

/-- A text with an escape in it is not the text in the query, and another text
makes the same query. -/
theorem not_fill_keeps_values :
    let template := "\x7bA\x7d"
    let values := [.text "x\\\x7by"]
    standard.registry.BuiltinOnly ∧ (standard.read template).IsValid
      ∧ (standard.fill template values).errors = []
      ∧ standard.fillApart template values = "'x\\\x7by'"
      ∧ (standard.fill template values).text = "'x\x7by'"
      ∧ (standard.fill template values).text ≠ standard.fillApart template values
      ∧ (standard.fill template [.text "x\x7by"]).text
          = (standard.fill template values).text := by
  intro template values
  exact ⟨builtinOnly_standard, by decide +kernel, by decide +kernel, by decide +kernel,
    by decide +kernel, by decide +kernel, by decide +kernel⟩

end Engine

end QueryStencil
