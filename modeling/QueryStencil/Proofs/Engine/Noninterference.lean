/-
# `QueryStencil.Proofs.Engine.Noninterference` — no text gets out of its literal

Two fillings of one template, with values that differ only where the kind of
the placeholder is free text: outside of literals the two queries are the same,
and neither leaves a literal open.  So whoever controls the texts controls the
inside of literals and nothing else.

Both queries are the gaps of the template with written values between them
(`text_fill`), and the written values are interchangeable one by one.  The
gaps are the same, and no quote stands in them: that is the assumption on the
template.
-/
import QueryStencil.Proofs.Engine.LeftToRight
import QueryStencil.Proofs.Kind.Interchange

namespace QueryStencil

open Template

/-! ## What is assumed -/

/-- All kinds in the registry are built-in ones, whatever they are called. -/
def Registry.BuiltinOnly (r : Registry) : Prop := ∀ e ∈ r.entries, e.kind.shape.IsBuiltin

/-- Every quote of a text stands in a placeholder. -/
def Reading.QuotesInside (r : Reading) (cs : List Char) : Prop :=
  ∀ i, ∀ h : i < cs.length, cs[i] = '\'' → ∃ p ∈ r.placeholders, p.start ≤ i ∧ i < p.stop

/-- The kind of the placeholder takes any value as free text. -/
def Engine.IsTextual (e : Engine) (p : Placeholder) : Prop :=
  ∃ k ∈ e.registry.find? p.kind, k.shape.IsTextual

/-- At the positions of placeholders that are not free text the values are the same. -/
def Engine.AgreeBesidesTexts (e : Engine) (r : Reading) (values values' : List Value) : Prop :=
  ∀ p ∈ r.placeholders, ¬ e.IsTextual p → values[p.ordinal]? = values'[p.ordinal]?

instance (r : Reading) (cs : List Char) : Decidable (r.QuotesInside cs) :=
  inferInstanceAs (Decidable (∀ _, ∀ _ : _ < _, _))

/-! ## The text as a whole -/

/-- Interchangeable texts between gaps without quotes make texts that are alike. -/
theorem alike_interleave {α : Type} {gaps : List (List Char)} {xs : List α}
    {f g : α → List Char} (hgaps : ∀ gap ∈ gaps, '\'' ∉ gap)
    (htexts : ∀ x ∈ xs, Interchangeable (f x) (g x)) :
    Sql.Alike (unescape (interleave gaps (xs.map f))) (unescape (interleave gaps (xs.map g))) := by
  induction xs generalizing gaps with
  | nil =>
      refine .of_not_mem ?_
      intro hquote
      have hmem := mem_of_mem_unescape hquote
      rw [List.map_nil, interleave_nil] at hmem
      obtain ⟨gap, hgap, hquote⟩ := List.mem_flatten.mp hmem
      exact hgaps gap hgap hquote
  | cons x xs ih =>
      cases gaps with
      | nil => exact .of_not_mem List.not_mem_nil
      | cons gap gaps =>
          obtain ⟨hx, hxs⟩ := List.forall_mem_cons.mp htexts
          obtain ⟨hgap, hrest⟩ := List.forall_mem_cons.mp hgaps
          have hfirst : Sql.Alike (unescape gap) (unescape gap) :=
            .of_not_mem fun hquote => hgap (mem_of_mem_unescape hquote)
          rw [List.map_cons, List.map_cons, interleave, interleave,
            hx.sealed_left.unescape_append, hx.sealed_right.unescape_append]
          exact (hfirst.append hx.alike).append (ih hrest hxs)

namespace Engine

variable {e : Engine} {template : String}

/-- Outside of its placeholders a template has no quote. -/
theorem not_mem_gaps_of_quotesInside
    (h : (e.read template).QuotesInside template.toList) :
    ∀ gap ∈ gaps template.toList 0 ((e.read template).placeholders.map Placeholder.span),
      '\'' ∉ gap := by
  refine not_mem_gaps (e.ascending_placeholders template) ?_
  intro i _ hquote
  obtain ⟨hi, hquote⟩ := List.getElem?_eq_some_iff.mp hquote
  obtain ⟨p, hp, hle, hlt⟩ := h i hi hquote
  exact ⟨p.span, List.mem_map_of_mem hp, hle, hlt⟩

/-! ## One placeholder in two fillings -/

theorem rejection?_of_isTextual {p : Placeholder} (h : e.IsTextual p) (v : Value) :
    e.rejection? p v = none := by
  obtain ⟨k, hk, htextual⟩ := h
  rw [rejection?_eq, if_neg]
  rintro ⟨-, hrefuses⟩
  rw [Registry.refusal?, show e.registry.find? p.kind = some k from hk, Option.bind_some,
    htextual.refusal?_eq_none] at hrefuses
  exact Bool.false_ne_true hrefuses

theorem rendition_of_rejection?_eq_none {p : Placeholder} {v : Value}
    (h : e.rejection? p v = none) : e.rendition p v = e.registry.render p.kind v := by
  rw [rejection?_eq] at h
  rw [rendition, if_neg]
  intro hrefuses
  rw [if_pos hrefuses] at h
  exact Option.some_ne_none _ h

theorem isBuiltin_of_find? {r : Registry} (hr : r.BuiltinOnly) {name : String} {k : Kind}
    (h : r.find? name = some k) : k.shape.IsBuiltin := by
  obtain ⟨entry, hentry, rfl⟩ := Option.map_eq_some_iff.mp h
  exact hr entry (List.mem_of_find?_eq_some hentry)

theorem builtinOnly_standard : standard.registry.BuiltinOnly := by
  have hkinds : standard.registry.entries.map Entry.kind = Kind.builtins := rfl
  intro entry hentry
  refine Kind.isBuiltin_of_mem_builtins ?_
  rw [← hkinds]
  exact List.mem_map_of_mem hentry

theorem interchangeable_render (hr : e.registry.BuiltinOnly) {p : Placeholder} {v w : Value}
    (h : e.IsTextual p ∨ v = w) :
    Interchangeable (e.registry.render p.kind v).toList (e.registry.render p.kind w).toList := by
  cases hk : e.registry.find? p.kind with
  | none =>
      rw [Registry.render, Registry.render, hk]
      exact interchangeable_literal _ _
  | some k =>
      rw [Registry.render, Registry.render, hk]
      refine (isBuiltin_of_find? hr hk).interchangeable_render (h.imp_left ?_)
      rintro ⟨k', hk', htextual⟩
      obtain rfl := Option.some.inj (hk.symm.trans hk')
      exact htextual

/-- The value of a placeholder is by its position, so where the values agree it is the same. -/
theorem valueOf_congr {values values' : List Value} {p : Placeholder}
    (h : values[p.ordinal]? = values'[p.ordinal]?) :
    e.valueOf values p = e.valueOf values' p := by
  rw [valueOf, valueOf, h]

/-! ## Two fillings -/

/-- A valid template is filled without errors if no value is refused. -/
theorem errors_fill_eq_nil_iff (h : (e.read template).IsValid) (values : List Value) :
    (e.fill template values).errors = []
      ↔ ∀ p ∈ (e.read template).placeholders, e.rejection? p (e.valueOf values p) = none := by
  rw [Filled.errors, e.complaints_fill h, List.map_eq_nil_iff, List.map_eq_nil_iff,
    List.reverse_eq_nil_iff, List.filterMap_eq_nil_iff]

theorem toList_text_fill (h : (e.read template).IsValid) (values : List Value) :
    (e.fill template values).text.toList
      = unescape (interleave
          (gaps template.toList 0 ((e.read template).placeholders.map Placeholder.span))
          ((e.read template).placeholders.map fun p =>
            (e.rendition p (e.valueOf values p)).toList)) := by
  rw [e.text_fill h, unescapeText, String.toList_ofList, String.toList_ofList]

theorem toList_text_fill_spliced (h : (e.read template).IsValid) (values : List Value) :
    (e.fill template values).text.toList = unescape (e.spliced template values) :=
  toList_text_fill h values

/-- What one filling accepts the other one accepts, and what they write is interchangeable. -/
theorem interchangeable_rendition (hregistry : e.registry.BuiltinOnly) {p : Placeholder}
    {v w : Value} (hsame : e.IsTextual p ∨ v = w) (haccepted : e.rejection? p v = none) :
    e.rejection? p w = none
      ∧ Interchangeable (e.rendition p v).toList (e.rendition p w).toList := by
  have haccepted' : e.rejection? p w = none := by
    rcases hsame with htextual | rfl
    · exact rejection?_of_isTextual htextual w
    · exact haccepted
  refine ⟨haccepted', ?_⟩
  rw [rendition_of_rejection?_eq_none haccepted, rendition_of_rejection?_eq_none haccepted']
  exact interchangeable_render hregistry hsame

/-- Values that differ only as texts make queries that are the same outside of
literals, if they make a query at all; and no literal is left open. -/
theorem fill_noninterference (e : Engine) (template : String) (values values' : List Value)
    (hregistry : e.registry.BuiltinOnly) (hvalid : (e.read template).IsValid)
    (hquotes : (e.read template).QuotesInside template.toList)
    (hagree : e.AgreeBesidesTexts (e.read template) values values')
    (hfilled : (e.fill template values).errors = []) :
    let query := (e.fill template values).text
    let query' := (e.fill template values').text
    (e.fill template values').errors = []
      ∧ Sql.EndsOutside query ∧ Sql.EndsOutside query'
      ∧ Sql.outline query = Sql.outline query'
      ∧ Sql.textOutside query = Sql.textOutside query' := by
  intro query query'
  have haccepted := (errors_fill_eq_nil_iff hvalid values).mp hfilled
  have hboth : ∀ p ∈ (e.read template).placeholders,
      e.rejection? p (e.valueOf values' p) = none
        ∧ Interchangeable (e.rendition p (e.valueOf values p)).toList
            (e.rendition p (e.valueOf values' p)).toList := by
    intro p hp
    refine interchangeable_rendition hregistry ?_ (haccepted p hp)
    by_cases htextual : e.IsTextual p
    · exact .inl htextual
    · exact .inr (valueOf_congr (hagree p hp htextual))
  have halike : Sql.Alike query.toList query'.toList := by
    rw [toList_text_fill hvalid, toList_text_fill hvalid]
    exact alike_interleave (not_mem_gaps_of_quotesInside hquotes) fun p hp => (hboth p hp).2
  have hout : Sql.Mode.outside ≠ .inside := Sql.Mode.noConfusion
  have houtline : Sql.outline query = Sql.outline query' := halike.outline_eq .outside hout
  have hends : Sql.EndsOutside query := halike.closed .outside hout
  refine ⟨(errors_fill_eq_nil_iff hvalid values').mpr fun p hp => (hboth p hp).1, hends, ?_,
    houtline, ?_⟩
  · rw [Sql.EndsOutside, ← halike.after_eq .outside hout]
    exact hends
  · rw [Sql.textOutside, Sql.textOutside, houtline]

/-- A text that would be a condition of its own, were it not quoted, beside a number. -/
theorem textOutside_fill_tautology :
    let template := "name = \x7bA:: it's\x7d AND n > \x7bN:NumberInput\x7d"
    let values := [.null, .int 3]
    let values' := [.text "' OR ''='", .int 3]
    let query' := (standard.fill template values').text
    standard.registry.BuiltinOnly ∧ (standard.read template).IsValid
      ∧ (standard.read template).QuotesInside template.toList
      ∧ standard.AgreeBesidesTexts (standard.read template) values values'
      ∧ (standard.fill template values).errors = []
      ∧ query' = "name = ''' OR ''''=''' AND n > 3" ∧ Sql.EndsOutside query'
      ∧ Sql.textOutside (standard.fill template values).text = Sql.textOutside query' := by
  intro template values values' query'
  have hregistry := builtinOnly_standard
  have hvalid : (standard.read template).IsValid := by decide +kernel
  have hquotes : (standard.read template).QuotesInside template.toList := by decide +kernel
  have hholes : (standard.read template).placeholders
      = [⟨⟨"A", "StringInput", "it's"⟩, 0, "\x7bA:: it's\x7d", 7, 17⟩,
          ⟨⟨"N", "NumberInput", ""⟩, 1, "\x7bN:NumberInput\x7d", 26, 41⟩] := by decide +kernel
  have hagree : standard.AgreeBesidesTexts (standard.read template) values values' := by
    intro p hp hother
    rw [hholes, List.mem_pair] at hp
    rcases hp with rfl | rfl
    · exact absurd ⟨.freeText, rfl, .text⟩ hother
    · rfl
  have hfilled : (standard.fill template values).errors = [] := by decide +kernel
  obtain ⟨-, -, hends, -, hsame⟩ :=
    fill_noninterference standard template values values' hregistry hvalid hquotes hagree hfilled
  exact ⟨hregistry, hvalid, hquotes, hagree, hfilled, by decide +kernel, hends, hsame⟩

end Engine

end QueryStencil
