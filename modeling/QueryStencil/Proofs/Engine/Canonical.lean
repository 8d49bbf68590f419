/-
# `QueryStencil.Proofs.Engine.Canonical` — one spelling for what holes say

Many holes say the same field: there may be blanks around the parts, no kind
where the fallback is meant, and no colons before a default that is empty.  The
canonical template has all three parts in every placeholder, and one blank
after the default.  The blank is there for defaults that end in a backslash,
which would make the closing brace a literal one.

To spell a valid template so is to recast it (`canonical_eq_recast`), and the
new content of each hole fits and says what the old content said (`fits_spell`,
`says?_spell`).  So the canonical template has the same stretches of text
between its placeholders, the same fields in them, and no mistakes, and that is
all that a filling depends on.
-/
import QueryStencil.Proofs.Engine.Said

namespace QueryStencil

open Template

namespace Template

/-- The field with all its three parts, and a blank at the end. -/
def Field.canonical (f : Field) : String :=
  "\x7b" ++ f.label ++ ":" ++ f.kind ++ ":" ++ f.standIn ++ " \x7d"

theorem Field.toList_canonical (f : Field) :
    f.canonical.toList = (Piece.hole (f.content ++ [' '])).source := by
  simp [Field.canonical, Field.content, Piece.source]

end Template

namespace Engine

/-- The template with every placeholder in its canonical spelling. -/
def canonical (e : Engine) (template : String) : String :=
  String.ofList (interleave (e.segments template)
    ((e.read template).placeholders.map fun p => p.toField.canonical.toList))

variable {e : Engine}

/-! ## The canonical spelling -/

/-- The content as a canonical placeholder has it, if it says anything. -/
def spell (e : Engine) (content : List Char) : List Char :=
  match e.says? content with
  | some f => f.content ++ [' ']
  | none => content

theorem spell_of_says? {content : List Char} {f : Field} (h : e.says? content = some f) :
    e.spell content = f.content ++ [' '] := by
  rw [spell, h]

section Spell

variable (hfallback : Nameable e.registry e.settings.fallback) {content : List Char}
  (hfits : Fits content)

include hfallback hfits in
theorem clean_of_says? {f : Field} (h : e.says? content = some f) : f.Clean e.registry :=
  Field.clean_of_ofContent hfallback hfits.braceFree (says?_eq_some_iff.mp h)

include hfallback hfits in
/-- Content in its canonical spelling says what it said before. -/
theorem says?_spell : e.says? (e.spell content) = e.says? content := by
  cases h : e.says? content with
  | none => rw [spell, h, h]
  | some f =>
      have hblank : Text.AllBlank [' '] := by decide
      rw [spell_of_says? h]
      exact says?_eq_some_iff.mpr
        ((clean_of_says? hfallback hfits h).ofContent_content _ hblank)

include hfallback hfits in
theorem fits_spell : Fits (e.spell content) := by
  cases h : e.says? content with
  | none =>
      rw [spell, h]
      exact hfits
  | some f =>
      rw [spell_of_says? h]
      exact (clean_of_says? hfallback hfits h).braceFree_content.fits_append_blank

end Spell

theorem map_canonical_says? {found : List (List Char)}
    (h : ∀ content ∈ found, (e.says? content).isSome) :
    (found.filterMap e.says?).map (fun f => f.canonical.toList)
      = found.map fun content => (Piece.hole (e.spell content)).source := by
  induction found with
  | nil => rfl
  | cons content found ih =>
      obtain ⟨hfirst, hrest⟩ := List.forall_mem_cons.mp h
      obtain ⟨f, hf⟩ := Option.isSome_iff_exists.mp hfirst
      rw [List.filterMap_cons_some hf, List.map_cons, List.map_cons, ih hrest,
        spell_of_says? hf, Field.toList_canonical]

/-- The canonical template is the template with its holes spelled. -/
theorem canonical_eq_recast {template : String} (h : (e.read template).IsValid) :
    e.canonical template = recast e.spell template := by
  have hspoken := (isValid_read_iff.mp h).1
  have hcanonical : ((e.read template).placeholders.map fun p => p.toField.canonical.toList)
      = ((contents (piecesOf template)).filterMap e.says?).map fun f => f.canonical.toList := by
    rw [← map_toField_placeholders, List.map_map]
    rfl
  apply String.toList_inj.mp
  rw [canonical, String.toList_ofList, toList_recast, segments_of_isValid h, hcanonical,
    map_canonical_says? hspoken]

section Canonical

variable {template : String} (hfallback : Nameable e.registry e.settings.fallback)
  (hvalid : (e.read template).IsValid)

include hfallback hvalid in
theorem piecesOf_canonical :
    piecesOf (e.canonical template) = (piecesOf template).map (Piece.mapContent e.spell) := by
  rw [canonical_eq_recast hvalid]
  exact piecesOf_recast fun content hmem => fits_spell hfallback (fits_of_mem_contents hmem)

include hfallback hvalid in
theorem contents_canonical :
    contents (piecesOf (e.canonical template))
      = (contents (piecesOf template)).map e.spell := by
  rw [piecesOf_canonical hfallback hvalid, contents_map_mapContent]

include hfallback hvalid in
theorem isValid_canonical : (e.read (e.canonical template)).IsValid := by
  obtain ⟨hspoken, hstrays⟩ := isValid_read_iff.mp hvalid
  refine isValid_read_iff.mpr ⟨?_, ?_⟩
  · rw [contents_canonical hfallback hvalid, List.forall_mem_map]
    intro content hmem
    rw [says?_spell hfallback (fits_of_mem_contents hmem)]
    exact hspoken content hmem
  · rw [canonical_eq_recast hvalid]
    exact strays_recast (fun content hmem => fits_spell hfallback (fits_of_mem_contents hmem))
      hstrays

include hfallback hvalid in
theorem map_said_canonical :
    (e.read (e.canonical template)).placeholders.map Placeholder.said
      = (e.read template).placeholders.map Placeholder.said := by
  have hsame : (contents (piecesOf (e.canonical template))).filterMap e.says?
      = (contents (piecesOf template)).filterMap e.says? := by
    rw [contents_canonical hfallback hvalid, List.filterMap_map]
    exact List.filterMap_congr fun content hmem =>
      says?_spell hfallback (fits_of_mem_contents hmem)
  rw [map_said_placeholders, map_said_placeholders, hsame]

include hfallback hvalid in
theorem segments_canonical : e.segments (e.canonical template) = e.segments template := by
  rw [segments_of_isValid (isValid_canonical hfallback hvalid), segments_of_isValid hvalid,
    piecesOf_canonical hfallback hvalid, stretches_map_mapContent]

include hfallback hvalid in
theorem canonical_canonical : e.canonical (e.canonical template) = e.canonical template := by
  have hsame : ((e.read (e.canonical template)).placeholders.map fun p =>
        p.toField.canonical.toList)
      = (e.read template).placeholders.map fun p => p.toField.canonical.toList :=
    map_of_said (fun p q h => by rw [(Prod.mk.inj h).1]) (map_said_canonical hfallback hvalid)
  rw [canonical, segments_canonical hfallback hvalid, hsame, ← canonical]

end Canonical

/-- The canonical template means what the template means.  It is valid, its placeholders say the
same in the same order, every list of values has the same errors and if there are none makes the
same query, and to spell it once more changes nothing. -/
theorem read_fill_canonical (e : Engine) (template : String)
    (hfallback : Nameable e.registry e.settings.fallback)
    (hvalid : (e.read template).IsValid) :
    let template' := e.canonical template
    (e.read template').IsValid
      ∧ (e.read template').placeholders.map Placeholder.said
        = (e.read template).placeholders.map Placeholder.said
      ∧ (∀ values, (e.fill template' values).errors = (e.fill template values).errors
          ∧ ((e.fill template values).errors = [] →
              (e.fill template' values).text = (e.fill template values).text))
      ∧ e.canonical template' = template' := by
  intro template'
  have hvalid' := isValid_canonical hfallback hvalid
  have hsaid := map_said_canonical hfallback hvalid
  have hsegments := segments_canonical hfallback hvalid
  refine ⟨hvalid', hsaid, ?_, canonical_canonical hfallback hvalid⟩
  intro values
  constructor
  · rw [Filled.errors, Filled.errors, complaints_fill_of_said hvalid' hvalid hsaid]
  · exact text_fill_of_said hvalid' hvalid hsaid hsegments

/-- Blanks, no kind, colons in a default and a backslash at its end, braces around a hole, and a
year that is refused where no value is given. -/
theorem read_fill_canonical_backslash :
    let template :=
      "\\\x7b \x7b\x7b A\t: :x:8\x7d\x7d = \x7bN:NumberInput: 7\\ \x7d\\\x7d\x7bY :Year\x7d"
    let template' :=
      "\\\x7b \x7b\x7bA:StringInput:x:8 \x7d\x7d = \x7bN:NumberInput:7\\ \x7d\\\x7d\x7bY:Year: \x7d"
    Nameable dated.registry dated.settings.fallback ∧ (dated.read template).IsValid
      ∧ dated.canonical template = template' ∧ (dated.read template').IsValid
      ∧ (dated.read template').placeholders.map Placeholder.said
        = [(⟨"A", "StringInput", "x:8"⟩, 0), (⟨"N", "NumberInput", "7\\"⟩, 1),
            (⟨"Y", "Year", ""⟩, 2)]
      ∧ (dated.fill template' [.null, .int 3, .int 2024]).text = "\x7b \x7b'x:8'\x7d = 3\x7d2024"
      ∧ (dated.fill template' [.null, .text "many"]).errors
        = ["Parameter \"Y\" expects a four-digit year, got: ",
            "Parameter \"N\" expects a number, got: many"]
      ∧ dated.canonical template' = template' := by
  intro template template'
  have hfallback : Nameable dated.registry dated.settings.fallback := by decide +kernel
  have hvalid : (dated.read template).IsValid := by decide +kernel
  have hspelled : dated.canonical template = template' := by decide +kernel
  obtain ⟨hvalid', hsaid, hfill, hagain⟩ := read_fill_canonical dated template hfallback hvalid
  rw [hspelled] at hvalid' hsaid hfill hagain
  refine ⟨hfallback, hvalid, hspelled, hvalid', hsaid.trans (by decide +kernel), ?_, ?_, hagain⟩
  · exact ((hfill [.null, .int 3, .int 2024]).2 (by decide +kernel)).trans (by decide +kernel)
  · exact (hfill [.null, .text "many"]).1.trans (by decide +kernel)

end Engine

end QueryStencil
