/-
# `QueryStencil.Proofs.Engine.Names` — readings when more names are known

A registry is asked for one thing when a template is read: whether it knows the
name that a hole gives.  Where it does not, the message lists all names that it
knows.  So an engine that knows more names finds whatever the other one finds in
a hole, and perhaps something where the other one finds a mistake
(`Field.ofContent_of_subset`).

Along the holes of a template what is found grows by insertion (`found_sublist`).
Hence old placeholders stay in their order, and their ordinals go up by what is
inserted before them, while mistakes of holes can only go away.  Braces are paired
without any names (`read_growsTo`).
-/
import Mathlib.Data.List.NodupEquivFin
import Mathlib.Order.WellFounded
import QueryStencil.Proofs.Engine.Reading
import QueryStencil.Proofs.Template.Field

namespace QueryStencil

open Template

/-- What becomes of a reading when more names are known. -/
structure Reading.GrowsTo (r r' : Reading) : Prop where
  source_eq : r'.source = r.source
  /-- Placeholders stay, in their order; only their ordinals may go up. -/
  placeholders : ∃ place : Nat → Nat, StrictMono place ∧
    ∀ k p, r.placeholders[k]? = some p →
      p.ordinal ≤ place k ∧ r'.placeholders[place k]? = some { p with ordinal := place k }
  /-- Where there is a mistake of a hole, there was one. -/
  malformed : (r'.malformed.map Mistake.span).Sublist (r.malformed.map Mistake.span)
  unbalanced_eq : r'.unbalanced = r.unbalanced
  /-- If nothing was wrong, nothing changes. -/
  eq_of_isValid : r.IsValid → r' = r

namespace Registry

theorem sortedNames_pairwise (r : Registry) : r.sortedNames.Pairwise (· ≤ ·) := by
  have hsorted : r.sortedNames.Pairwise fun a b => decide (a ≤ b) = true := by
    refine List.pairwise_mergeSort ?_ ?_ r.names
    · intro a b c hab hbc
      exact decide_eq_true (String.le_trans (of_decide_eq_true hab) (of_decide_eq_true hbc))
    · intro a b
      rw [Bool.or_eq_true, decide_eq_true_eq, decide_eq_true_eq]
      exact String.le_total a b
  exact hsorted.imp of_decide_eq_true

/-- The names in order do not tell in which order they were registered. -/
theorem sortedNames_eq {r r' : Registry} (h : ∀ name, name ∈ r ↔ name ∈ r') :
    r.sortedNames = r'.sortedNames := by
  have hnames : r.names.Perm r'.names :=
    (List.perm_ext_iff_of_nodup r.distinct r'.distinct).mpr h
  have hsorted : r.sortedNames.Perm r'.sortedNames :=
    ((List.mergeSort_perm _ _).trans hnames).trans (List.mergeSort_perm _ _).symm
  exact hsorted.eq_of_pairwise (fun _ _ _ _ => String.le_antisymm) r.sortedNames_pairwise
    r'.sortedNames_pairwise

end Registry

namespace Template.Field

variable {r r' : Registry} {fallback : String} {content : List Char}

/-- A hole that says something still says it when more names are known. -/
theorem ofContent_of_subset (h : r.names ⊆ r'.names) {f : Field}
    (hf : ofContent r fallback content = .ok f) : ofContent r' fallback content = .ok f := by
  obtain ⟨hne, hlabel, hkind, hstandIn⟩ := ofContent_eq_ok_iff.mp hf
  refine ofContent_eq_ok_iff.mpr ⟨hne, hlabel, ?_, hstandIn⟩
  rcases hkind with hunnamed | ⟨hnamed, hmem, hname⟩
  · exact .inl hunnamed
  · exact .inr ⟨hnamed, h hmem, hname⟩

/-- The names are all that a hole asks of a registry. -/
theorem ofContent_congr (h : ∀ name, name ∈ r ↔ name ∈ r') :
    ofContent r fallback content = ofContent r' fallback content := by
  simp only [ofContent, h, Registry.sortedNames_eq h]

end Template.Field

namespace Engine

variable {e e' : Engine}

/-! ## Among holes -/

/-- What is found is found again if every hole still says what it says, and in the same order. -/
theorem found_sublist (hs : List Hole)
    (hkeep : ∀ h f, e.field h = .ok f → e'.field h = .ok f) :
    (e.found hs).Sublist (e'.found hs) := by
  induction hs with
  | nil => exact .slnil
  | cons h hs ih =>
      cases hf : e.field h with
      | ok f =>
          rw [e.found_cons_of_ok hf, e'.found_cons_of_ok (hkeep h f hf)]
          exact ih.cons_cons _
      | error fault =>
          rw [e.found_cons_of_error hf]
          cases hf' : e'.field h with
          | ok f' =>
              rw [e'.found_cons_of_ok hf']
              exact ih.cons _
          | error fault' =>
              rw [e'.found_cons_of_error hf']
              exact ih

/-- Engines that agree on every hole of a template read it alike. -/
theorem read_congr {template : String} (h : ∀ hole ∈ holes template, e'.field hole = e.field hole) :
    e'.read template = e.read template := by
  have hplaceholders : e'.placeholdersIn (holes template) = e.placeholdersIn (holes template) := by
    rw [placeholdersIn, placeholdersIn, List.filterMap_congr fun hole hmem => by rw [h hole hmem]]
  have hmistakes : e'.mistakesIn (holes template) = e.mistakesIn (holes template) :=
    List.filterMap_congr fun hole hmem => by rw [h hole hmem]
  rw [read, hplaceholders, hmistakes, read]

/-- Every hole of a valid template says something. -/
theorem exists_field_of_isValid {template : String} (h : (e.read template).IsValid) :
    ∀ hole ∈ holes template, ∃ f, e.field hole = .ok f := by
  intro hole hmem
  cases hf : e.field hole with
  | ok f => exact ⟨f, rfl⟩
  | error fault =>
      have hmalformed : hole.mistake fault ∈ (e.read template).mistakes :=
        List.mem_append_left _ (List.mem_filterMap.mpr ⟨hole, hmem, by rw [hf]⟩)
      rw [h] at hmalformed
      exact absurd hmalformed List.not_mem_nil

/-! ## Of a whole template -/

section Grows

variable (hfallback : e'.settings.fallback = e.settings.fallback)
  (hnames : e.registry.names ⊆ e'.registry.names)

include hfallback hnames

theorem field_of_subset {h : Hole} {f : Field} (hf : e.field h = .ok f) : e'.field h = .ok f := by
  rw [field, hfallback]
  exact Field.ofContent_of_subset hnames hf

theorem placeholders_grow (template : String) :
    ∃ place : Nat → Nat, StrictMono place ∧
      ∀ k p, (e.read template).placeholders[k]? = some p →
        p.ordinal ≤ place k
          ∧ (e'.read template).placeholders[place k]? = some { p with ordinal := place k } := by
  have hfound := found_sublist (holes template) fun _ _ => field_of_subset hfallback hnames
  obtain ⟨place, hplace⟩ := List.sublist_iff_exists_orderEmbedding_getElem?_eq.mp hfound
  -- a placeholder has its position for an ordinal, so the new ordinal is the new position
  refine ⟨place, place.strictMono, ?_⟩
  intro k p hp
  rw [read, getElem?_placeholdersIn] at hp
  obtain ⟨x, hx, rfl⟩ := Option.map_eq_some_iff.mp hp
  refine ⟨place.strictMono.le_apply, ?_⟩
  rw [read, getElem?_placeholdersIn, ← hplace k, hx]
  rfl

theorem malformed_shrink (template : String) :
    ((e'.read template).malformed.map Mistake.span).Sublist
      ((e.read template).malformed.map Mistake.span) := by
  rw [malformed_read, malformed_read, map_span_mistakesIn, map_span_mistakesIn]
  refine (List.monotone_filter_right _ ?_).map _
  intro h hmistake
  cases hf : e.field h with
  | ok f =>
      rw [field_of_subset hfallback hnames hf] at hmistake
      exact hmistake
  | error fault => rfl

theorem read_eq_of_isValid {template : String} (h : (e.read template).IsValid) :
    e'.read template = e.read template := by
  refine read_congr fun hole hmem => ?_
  obtain ⟨f, hf⟩ := exists_field_of_isValid h hole hmem
  rw [hf]
  exact field_of_subset hfallback hnames hf

end Grows

/-- What a reading becomes when more names are known, and that it does not change with the order
of the names or with the kinds that they stand for. -/
theorem read_growsTo (e e' : Engine) (template : String)
    (hfallback : e'.settings.fallback = e.settings.fallback)
    (hnames : e.registry.names ⊆ e'.registry.names) :
    (e.read template).GrowsTo (e'.read template)
      ∧ (e'.registry.names ⊆ e.registry.names → e'.read template = e.read template) := by
  refine ⟨?_, ?_⟩
  · exact {
      source_eq := rfl
      placeholders := placeholders_grow hfallback hnames template
      malformed := malformed_shrink hfallback hnames template
      unbalanced_eq := by rw [unbalanced_read, unbalanced_read]
      eq_of_isValid := read_eq_of_isValid hfallback hnames }
  · intro hnames'
    refine read_congr fun hole _ => ?_
    rw [field, field, hfallback]
    exact Field.ofContent_congr fun name => ⟨(hnames' ·), (hnames ·)⟩

/-- A hole in the middle that is read only where its name is known, beside one that is not read at
all and a brace; and the same names in another order, one of them with another kind. -/
theorem read_growsTo_ticker :
    let among (kinds : List Kind) : Engine :=
      ⟨Registry.ofEntries (kinds.filterMap Kind.entry?), {}⟩
    let more := among (.choice (.text "Ticker") "Ticker" ["AAPL"] :: Kind.builtins)
    let other := among
      (.choice (.text "NumberInput") "Number" ["1", "2"] :: Kind.builtins.reverse)
    let template := "\x7bA\x7d \x7bT:Ticker\x7d \x7bN:NumberInput\x7d \x7b:x\x7d \x7d"
    let r := standard.read template
    let r' := more.read template
    more.settings.fallback = standard.settings.fallback
      ∧ standard.registry.names ⊆ more.registry.names ∧ r.GrowsTo r'
      ∧ r.placeholders.map (fun p => (p.label, p.ordinal)) = [("A", 0), ("N", 1)]
      ∧ r'.placeholders.map (fun p => (p.label, p.ordinal)) = [("A", 0), ("T", 1), ("N", 2)]
      ∧ r.malformed.map Mistake.span = [(4, 14), (31, 35)]
      ∧ r'.malformed.map Mistake.span = [(31, 35)]
      ∧ other.registry.names ≠ standard.registry.names ∧ other.read template = r := by
  intro among more other template r r'
  have hmore : standard.registry.names ⊆ more.registry.names := by decide +kernel
  have hother : standard.registry.names ⊆ other.registry.names := by decide +kernel
  have hother' : other.registry.names ⊆ standard.registry.names := by decide +kernel
  refine ⟨rfl, hmore, (read_growsTo standard more template rfl hmore).1, by decide +kernel,
    by decide +kernel, by decide +kernel, by decide +kernel, by decide +kernel, ?_⟩
  exact (read_growsTo standard other template rfl hother).2 hother'

end Engine

end QueryStencil
