/-
# `QueryStencil.Proofs.Engine.Presence` — whether a template has placeholders

`hasPlaceholders` tries the holes one after the other and stops at the first that
says something.  It counts nothing, keeps no mistake, and does not look at braces
outside of holes.  A reading does all of that, and both agree on every template
(`hasPlaceholders_iff_ne_nil`): what is malformed or unbalanced, in front of a
good occurrence or behind it, makes no difference (`hasPlaceholders_iff_exists`).

The answer decides whether values matter.  Without placeholders no value is
looked at, valid template or not (`fill_of_placeholders_eq_nil`), and this is so for
all kinds.  With placeholders it is up to the kinds: one that writes the same for
every value makes them not matter.  The built-in ones do not refuse a digit, and
they write it down (`Registry.takes_digit`).  So with nothing but these in the
registry a valid template tells even two digits apart that are supplied for its
first placeholder.
-/
import QueryStencil.Proofs.Engine.Places

namespace QueryStencil

open Template

/-! ## Digits -/

/-- A digit is taken by every built-in shape, and is written bare or as a literal. -/
theorem Shape.IsBuiltin.takes_digit {s : Shape} (h : s.IsBuiltin) : ∀ d ∈ ["1", "2"],
    s.refusal? (.text d) = none ∧ s.render (.text d) ∈ [d, Sql.literal d] := by
  cases h with
  | text => exact fun d _ => ⟨rfl, List.mem_cons_of_mem _ List.mem_cons_self⟩
  | choice options => exact fun d _ => ⟨rfl, List.mem_cons_of_mem _ List.mem_cons_self⟩
  | number => decide +kernel
  | tags => decide +kernel

/-- However a digit is written, it is kept apart from what stands around it. -/
theorem sealed_digit : ∀ d ∈ ["1", "2"], ∀ text ∈ [d, Sql.literal d], Sealed text.toList := by
  have hends : ∀ d ∈ ["1", "2"], ∀ text ∈ [d, Sql.literal d], text.toList ≠ []
      ∧ ¬ LedByBrace text.toList ∧ escapedAfter false text.toList = false := by decide +kernel
  intro d hd text htext
  obtain ⟨hne, hfront, hback⟩ := hends d hd text htext
  exact ⟨hne, hfront, hback⟩

theorem unescape_digits_ne : ∀ text ∈ ["1", Sql.literal "1"], ∀ text' ∈ ["2", Sql.literal "2"],
    unescape text.toList ≠ unescape text'.toList := by
  decide +kernel

theorem Registry.takes_digit {r : Registry} (hr : r.BuiltinOnly) (name : String) :
    ∀ d ∈ ["1", "2"],
      r.refusal? name (.text d) = none ∧ r.render name (.text d) ∈ [d, Sql.literal d] := by
  intro d hd
  rw [refusal?, render]
  cases hk : r.find? name with
  | none => exact ⟨rfl, List.mem_cons_of_mem _ List.mem_cons_self⟩
  | some k => exact (Engine.isBuiltin_of_find? hr hk).takes_digit d hd

namespace Engine

variable {e : Engine} {template : String}

/-! ## Trying holes and reading them -/

theorem placeholdersIn_eq_nil_iff {hs : List Hole} :
    e.placeholdersIn hs = [] ↔ ∀ h ∈ hs, (e.field h).toOption = none := by
  simp only [placeholdersIn, List.mapIdx_eq_nil_iff, List.filterMap_eq_nil_iff,
    Option.map_eq_none_iff]

theorem hasPlaceholders_iff_ne_nil :
    e.hasPlaceholders template = true ↔ (e.read template).placeholders ≠ [] := by
  rw [read, Ne, placeholdersIn_eq_nil_iff, hasPlaceholders, List.any_eq_true]
  simp only [not_forall, Option.ne_none_iff_isSome, exists_prop]

/-- There is a placeholder wherever an occurrence says something. -/
theorem hasPlaceholders_iff_exists :
    e.hasPlaceholders template = true
      ↔ ∃ i j f, Occurrence template.toList i j
        ∧ Field.ofContent e.registry e.settings.fallback (slice template.toList (i + 1) (j - 1))
          = .ok f := by
  rw [hasPlaceholders, List.any_eq_true]
  constructor
  · rintro ⟨hole, hmem, hsaid⟩
    have hstands := mem_holes_iff_standsIn.mp hmem
    obtain ⟨f, hf⟩ := Option.isSome_iff_exists.mp hsaid
    refine ⟨hole.start, hole.stop, f, hstands.occurrence, ?_⟩
    rw [← hstands.content_eq_slice]
    exact says?_eq_some_iff.mp hf
  · rintro ⟨i, j, f, hoccurs, hf⟩
    obtain ⟨hole, rfl, rfl, hstands⟩ := hoccurs.exists_hole
    refine ⟨hole, mem_holes_iff_standsIn.mpr hstands, ?_⟩
    rw [← hstands.content_eq_slice] at hf
    exact Option.isSome_of_eq_some (says?_eq_some_iff.mpr hf)

/-! ## Whether values matter -/

/-- Without placeholders there is nothing to do but to undo escapes, and no value is looked at. -/
theorem fill_of_placeholders_eq_nil (h : (e.read template).placeholders = [])
    (values : List Value) :
    e.fill template values
      = if (e.read template).IsValid then ⟨unescapeText template, []⟩
        else ⟨template, (e.read template).mistakes.map .malformed⟩ := by
  simp only [fill, h, List.reverse_nil, List.foldl_nil, List.map_nil, unescapeText]

/-- A digit that is supplied for the first placeholder is written there. -/
theorem rendition_digit (hregistry : e.registry.BuiltinOnly) {p : Placeholder}
    (hp : p.ordinal = 0) : ∀ d ∈ ["1", "2"],
    e.rendition p (e.valueOf [.text d] p) ∈ [d, Sql.literal d] := by
  intro d hd
  obtain ⟨htaken, hwritten⟩ := Registry.takes_digit hregistry p.kind d hd
  have hvalue : e.valueOf [.text d] p = .text d := by
    have hpresent : ¬ (Value.text d).IsMissing := not_isMissing_text (by rintro rfl; simp at hd)
    rw [valueOf, hp, List.getElem?_cons_zero, Option.getD_some, if_neg hpresent]
  have haccepts : ¬ e.Refuses p (.text d) := by
    rintro ⟨-, hrefused⟩
    rw [htaken] at hrefused
    cases hrefused
  rw [hvalue, rendition, if_neg haccepts]
  exact hwritten

/-- With built-in kinds a valid template with placeholders tells two digits apart. -/
theorem text_fill_digits_ne (hregistry : e.registry.BuiltinOnly)
    (hvalid : (e.read template).IsValid)
    (h : (e.read template).placeholders ≠ []) :
    (e.fill template [.text "1"]).text ≠ (e.fill template [.text "2"]).text := by
  obtain ⟨p, ps, hps⟩ := List.exists_cons_of_ne_nil h
  have hp : p ∈ (e.read template).placeholders := hps ▸ List.mem_cons_self
  have hfirst : (e.placeholdersIn (holes template))[0]? = some p := congrArg (·[0]?) hps
  have hordinal : p.ordinal = 0 := e.ordinal_of_getElem?_placeholdersIn hfirst
  have hagree : AgreeBesides p.ordinal [Value.text "1"] [Value.text "2"] := by
    intro j hj
    rw [hordinal] at hj
    obtain ⟨k, rfl⟩ := Nat.exists_eq_succ_of_ne_zero hj
    rfl
  have hsealed : ∀ d ∈ ["1", "2"], Sealed (e.rendition p (e.valueOf [.text d] p)).toList := by
    intro d hd
    exact sealed_digit d hd _ (rendition_digit hregistry hordinal d hd)
  have hone := rendition_digit hregistry hordinal "1" (by decide)
  have htwo := rendition_digit hregistry hordinal "2" (by decide)
  rw [Ne, text_fill_eq_iff_of_sealed hvalid hp hagree (hsealed "1" (by decide))
    (hsealed "2" (by decide))]
  exact unescape_digits_ne _ hone _ htwo

/-- To look for a placeholder is to read the template and see whether there are placeholders, which
is so if any occurrence says something, whatever else is wrong.  And it tells whether values matter:
without placeholders every filling is the same, whatever the kinds do, and with placeholders a valid
template has fillings with different texts if all kinds are built-in ones. -/
theorem hasPlaceholders_decides (e : Engine) (template : String) :
    (e.hasPlaceholders template = true ↔ (e.read template).placeholders ≠ [])
      ∧ (e.hasPlaceholders template = true
        ↔ ∃ i j f, Occurrence template.toList i j
          ∧ Field.ofContent e.registry e.settings.fallback
            (slice template.toList (i + 1) (j - 1)) = .ok f)
      ∧ (e.hasPlaceholders template = false →
          ∀ values values', e.fill template values = e.fill template values')
      ∧ (e.registry.BuiltinOnly → e.hasPlaceholders template = true → (e.read template).IsValid →
          ∃ values values', (e.fill template values).text ≠ (e.fill template values').text) := by
  refine ⟨hasPlaceholders_iff_ne_nil, hasPlaceholders_iff_exists, ?_, ?_⟩
  · intro h values values'
    have hnone : (e.read template).placeholders = [] := by
      by_contra hne
      rw [hasPlaceholders_iff_ne_nil.mpr hne] at h
      cases h
    rw [fill_of_placeholders_eq_nil hnone, fill_of_placeholders_eq_nil hnone]
  · intro hregistry h hvalid
    exact ⟨_, _, text_fill_digits_ne hregistry hvalid (hasPlaceholders_iff_ne_nil.mp h)⟩

/-- Between mistakes of all sorts there is a placeholder, or there is none, and by itself it is
filled in more than one way. -/
theorem hasPlaceholders_decides_among_mistakes :
    let bad := "\x7d \x7b:NumberInput\x7d \x7bA:Unknown\x7d \x7b\x7d \x7b"
    let good := "\x7bB\x7d"
    (standard.read bad).mistakes.length = 5 ∧ standard.hasPlaceholders bad = false
      ∧ (∀ values, standard.fill bad values = standard.fill bad [])
      ∧ (standard.read (bad ++ good ++ bad)).placeholders ≠ [] ∧ standard.registry.BuiltinOnly
      ∧ ∃ values values', (standard.fill good values).text ≠ (standard.fill good values').text := by
  intro bad good
  obtain ⟨-, -, hbad, -⟩ := hasPlaceholders_decides standard bad
  obtain ⟨hfound, -, -, -⟩ := hasPlaceholders_decides standard (bad ++ good ++ bad)
  obtain ⟨-, -, -, hgood⟩ := hasPlaceholders_decides standard good
  have hnone : standard.hasPlaceholders bad = false := by decide +kernel
  have hregistry := builtinOnly_standard
  refine ⟨by decide +kernel, hnone, fun values => hbad hnone values [], ?_, hregistry, ?_⟩
  · exact hfound.mp (by decide +kernel)
  · exact hgood hregistry (by decide +kernel) (by decide +kernel)

end Engine

end QueryStencil
