/-
# `QueryStencil.Proofs.Engine.Fallback` — an unknown fallback is free text

The fallback is known when an engine is set up, but a registry that others use as
well can lose it later.  Holes without a kind are placeholders all the same, and
nothing knows how their values behave.  There the registry does what free text
does: an empty text stands in, no value is refused, and a value is written as a
literal.

So it makes no difference if free text is registered under that name
(`servesAlike_put`).  Other names are looked up as before, and no hole of a valid
template becomes another one by a new name, so the whole filling is the same
(`fill_unknown_fallback`).
-/
import QueryStencil.Proofs.Engine.Escapes
import QueryStencil.Proofs.Engine.Names
import QueryStencil.Proofs.Registry.Entries

namespace QueryStencil

open Template

namespace Engine

variable {e e' : Engine}

/-- Two engines do the same with all placeholders: the same value stands in, the same values are
refused, in the same words, and the same is written. -/
structure ServesAlike (e e' : Engine) : Prop where
  standIn_eq : ∀ p, e'.standIn p = e.standIn p
  rejection?_eq : ∀ p v, e'.rejection? p v = e.rejection? p v
  render_eq : ∀ (p : Placeholder) v, e'.registry.render p.kind v = e.registry.render p.kind v

namespace ServesAlike

theorem valueOf_eq (h : e.ServesAlike e') (values : List Value) (p : Placeholder) :
    e'.valueOf values p = e.valueOf values p := by
  rw [valueOf, valueOf, h.standIn_eq]

theorem write_eq (h : e.ServesAlike e') (values : List Value) :
    e'.write values = e.write values := by
  funext d p
  rw [write, write, h.valueOf_eq, h.rejection?_eq, h.render_eq]

/-- A template that is read alike is filled alike. -/
theorem fill_eq (h : e.ServesAlike e') {template : String}
    (hread : e'.read template = e.read template) (values : List Value) :
    e'.fill template values = e.fill template values := by
  rw [fill, fill, hread, h.write_eq]

end ServesAlike

/-! ## Free text under an unknown name -/

section Unknown

variable {x : Entry} (hname : x.name ∉ e.registry) (hshape : x.kind.shape = .text)

include hname in
theorem writesText_of_unknown {p : Placeholder} (h : p.kind = x.name) : e.WritesText p := by
  intro k hk
  rw [h, Registry.find?_eq_none hname] at hk
  cases hk

include hshape in
theorem writesText_put {p : Placeholder} (h : p.kind = x.name) :
    (Engine.mk (e.registry.put x) e.settings).WritesText p := by
  intro k hk
  rw [h, Registry.find?_put_self] at hk
  obtain rfl := Option.some.inj hk
  rw [hshape]
  exact .text

include hname hshape

/-- An empty text stands in for what is unknown, as it does for free text. -/
theorem standIn_registry_put (name : String) :
    (e.registry.put x).standIn name = e.registry.standIn name := by
  by_cases h : name = x.name
  · subst h
    rw [Registry.standIn, Registry.standIn, Registry.find?_put_self,
      Registry.find?_eq_none hname]
    show x.kind.standIn = .text ""
    rw [hshape]
    rfl
  · rw [Registry.standIn, Registry.standIn, Registry.find?_put_of_ne _ h]

/-- Registering free text under an unknown name makes no difference to any placeholder. -/
theorem servesAlike_put : e.ServesAlike ⟨e.registry.put x, e.settings⟩ where
  standIn_eq p := by
    rw [standIn, standIn, standIn_registry_put hname hshape]
  rejection?_eq p v := by
    by_cases h : p.kind = x.name
    · rw [rejection?_of_writesText (writesText_of_unknown hname h),
        rejection?_of_writesText (writesText_put hshape h)]
    · rw [rejection?, rejection?, Registry.find?_put_of_ne _ h]
  render_eq p v := by
    by_cases h : p.kind = x.name
    · rw [render_of_writesText (writesText_of_unknown hname h),
        ← render_of_writesText (writesText_put hshape h)]
    · rw [Registry.render, Registry.render, Registry.find?_put_of_ne _ h]

end Unknown

/-- If the fallback is not known, a valid template is read and filled as if it were free text. -/
theorem fill_unknown_fallback (e : Engine) (k : Kind) (template : String)
    (hunknown : e.settings.fallback ∉ e.registry) (hgoes : k.GoesBy e.settings.fallback)
    (hshape : k.shape = .text) (hvalid : (e.read template).IsValid) :
    ∃ r', e.registry.register (.kind k) = .ok r' ∧
      let e' : Engine := ⟨r', e.settings⟩
      e'.read template = e.read template
        ∧ e'.standIns (e'.read template) = e.standIns (e.read template)
        ∧ ∀ values, e'.fill template values = e.fill template values := by
  obtain ⟨x, rfl, hx⟩ := hgoes.exists_entry
  have hregister : e.registry.register (.kind x.kind) = .ok (e.registry.put x) := by
    rw [Registry.register, Candidate.entry_kind]
    rfl
  refine ⟨e.registry.put x, hregister, ?_⟩
  intro e'
  have halike : e.ServesAlike e' := servesAlike_put (hx ▸ hunknown) hshape
  have hfallback : e'.settings.fallback = e.settings.fallback := rfl
  have hread : e'.read template = e.read template :=
    read_eq_of_isValid hfallback (e.registry.names_subset_put x) hvalid
  refine ⟨hread, ?_, halike.fill_eq hread⟩
  rw [hread, standIns, standIns]
  exact List.map_congr_left fun p _ => halike.standIn_eq p

/-- Built-in kinds and years, without free text: holes that name no kind, with and without a
default, a number that is refused, and a default that is refused. -/
theorem fill_unknown_fallback_erased :
    let e : Engine := ⟨dated.registry.erase "StringInput", {}⟩
    let template := "\x7bA\x7d \x7bB::it's\x7d \x7bN:NumberInput\x7d \x7bY:Year\x7d"
    let values := [.list [.text "x", .null], .null, .text "many"]
    e.settings.fallback ∉ e.registry ∧ Kind.freeText.GoesBy e.settings.fallback
      ∧ Kind.freeText.shape = .text ∧ (e.read template).IsValid
      ∧ e.standIns (e.read template) = [.text "", .text "it's", .int 0, .text ""]
      ∧ (e.fill template values).text = "'x,None' 'it''s' \x7bN:NumberInput\x7d \x7bY:Year\x7d"
      ∧ (e.fill template values).errors
        = ["Parameter \"Y\" expects a four-digit year, got: ",
            "Parameter \"N\" expects a number, got: many"]
      ∧ ∃ r', e.registry.register (.kind .freeText) = .ok r'
        ∧ (Engine.mk r' e.settings).fill template values = e.fill template values := by
  intro e template values
  have hunknown : e.settings.fallback ∉ e.registry := by decide +kernel
  have hgoes : Kind.freeText.GoesBy e.settings.fallback := ⟨rfl, by decide +kernel⟩
  have hvalid : (e.read template).IsValid := by decide +kernel
  obtain ⟨r', hregister, -, -, hfill⟩ :=
    fill_unknown_fallback e .freeText template hunknown hgoes rfl hvalid
  exact ⟨hunknown, hgoes, rfl, hvalid, by decide +kernel, by decide +kernel, by decide +kernel,
    r', hregister, hfill values⟩

end Engine

end QueryStencil
