/-
# `QueryStencil.Proofs.Engine.Reach` — what templates can say

A registry takes every name that shows, but a hole is cut at colons and trimmed
before its kind is looked up.  So a kind may be registered to no purpose: no hole
names it if there is a colon or a brace in its name, or a blank at an end of it.

Every other registered name can be given, in a template without mistakes, and so
can every label and default that a placeholder may have at all
(`exists_placeholder_iff`).  Only the backslash needs care.  At the end of a hole
it would escape the closing brace, so the hole that is made for a field has a
blank there, which is trimmed away when the hole is read.
-/
import QueryStencil.Proofs.Engine.Said

namespace QueryStencil

open Template

/-- Every tidy field whose kind can be named or left out is said by some content. -/
theorem Template.Field.Tidy.exists_content {r : Registry} {fallback : String} {f : Field}
    (h : f.Tidy) (hkind : f.kind = fallback ∨ Nameable r f.kind) :
    ∃ content, Fits content ∧ Field.ofContent r fallback content = .ok f := by
  have hpad : Text.AllBlank [' '] := by decide
  rcases hkind with hfallback | hnameable
  · -- where the fallback is meant no kind is named, since holes need not be able to name it
    let unnamed : Field := { f with kind := "" }
    have hunnamed : unnamed.Tidy := ⟨h.label_ne, h.label_trim, h.label_braces, h.label_colon,
      h.standIn_trim, h.standIn_braces⟩
    have hfree : BraceFree unnamed.content :=
      hunnamed.braceFree_content fun _ hc => absurd hc List.not_mem_nil
    have hcontent : unnamed.content ++ [' ']
        = f.label.toList ++ ':' :: ([] ++ ':' :: (f.standIn.toList ++ [' '])) := by
      simp [unnamed, Field.content]
    refine ⟨unnamed.content ++ [' '], hfree.fits_append_blank, ?_⟩
    rw [hcontent]
    exact (h.ofContent_iff List.not_mem_nil hpad).mpr (.inl ⟨rfl, hfallback⟩)
  · have hclean : f.Clean r := ⟨h, hnameable⟩
    exact ⟨f.content ++ [' '], hclean.braceFree_content.fits_append_blank,
      hclean.ofContent_content fallback hpad⟩

namespace Engine

variable {e : Engine} {f : Field}

/-! ## Fields of placeholders -/

/-- A hole that says something is a template without mistakes. -/
theorem read_holeOf {content : List Char} (hfits : Fits content) (hsaid : e.says? content = some f) :
    (e.read (holeOf content)).IsValid
      ∧ (e.read (holeOf content)).placeholders.map Placeholder.toField = [f] := by
  have hcontents : contents (piecesOf (holeOf content)) = [content] := by
    rw [piecesOf_holeOf hfits, contents_hole]
    rfl
  rw [isValid_read_iff, map_toField_placeholders, hcontents]
  refine ⟨⟨?_, strays_holeOf hfits⟩, List.filterMap_cons_some hsaid⟩
  intro content' hmem
  obtain rfl := List.mem_singleton.mp hmem
  exact Option.isSome_of_eq_some hsaid

/-- What placeholders say, they say by the content of holes. -/
theorem exists_content_of_mem {template : String} {p : Placeholder}
    (hp : p ∈ (e.read template).placeholders) :
    ∃ content, BraceFree content
      ∧ Field.ofContent e.registry e.settings.fallback content = .ok p.toField := by
  have hfield := List.mem_map_of_mem (f := Placeholder.toField) hp
  rw [map_toField_placeholders] at hfield
  obtain ⟨content, hcontent, hsaid⟩ := List.mem_filterMap.mp hfield
  exact ⟨content, (fits_of_mem_contents hcontent).braceFree, says?_eq_some_iff.mp hsaid⟩

/-- A placeholder has a tidy field, of the fallback kind or of one that holes can name. -/
theorem tidy_of_mem_placeholders {template : String} {p : Placeholder}
    (hp : p ∈ (e.read template).placeholders) :
    p.toField.Tidy ∧ (p.kind = e.settings.fallback ∨ Nameable e.registry p.kind) := by
  obtain ⟨content, hfree, hsaid⟩ := exists_content_of_mem hp
  exact ⟨Field.tidy_of_ofContent hfree hsaid, Field.kind_of_ofContent hfree hsaid⟩

/-- And every such field is that of a placeholder, in a template without mistakes. -/
theorem exists_template (htidy : f.Tidy)
    (hkind : f.kind = e.settings.fallback ∨ Nameable e.registry f.kind) :
    ∃ template, (e.read template).IsValid
      ∧ (e.read template).placeholders.map Placeholder.toField = [f] := by
  obtain ⟨content, hfits, hsaid⟩ := htidy.exists_content hkind
  exact ⟨_, read_holeOf hfits (says?_eq_some_iff.mpr hsaid)⟩

/-- The fields that placeholders can have, in any template. -/
theorem exists_placeholder_iff :
    (∃ template, ∃ p ∈ (e.read template).placeholders, p.toField = f)
      ↔ f.Tidy ∧ (f.kind = e.settings.fallback ∨ Nameable e.registry f.kind) := by
  constructor
  · rintro ⟨template, p, hp, rfl⟩
    exact tidy_of_mem_placeholders hp
  · rintro ⟨htidy, hkind⟩
    obtain ⟨template, -, hfields⟩ := exists_template htidy hkind
    obtain ⟨p, hp, hfield⟩ := List.mem_map.mp (hfields ▸ List.mem_singleton_self f)
    exact ⟨template, p, hp, hfield⟩

/-! ## Names that can be given -/

/-- A field that says nothing but its kind. -/
def plainField (kind : String) : Field := ⟨"A", kind, ""⟩

theorem tidy_plainField (kind : String) : (plainField kind).Tidy where
  label_ne := show "A" ≠ "" by decide
  label_trim := show Text.trim "A".toList = "A".toList by decide
  label_braces := show BraceFree "A".toList by decide
  label_colon := show ':' ∉ "A".toList by decide
  standIn_trim := rfl
  standIn_braces := fun _ hc => absurd hc List.not_mem_nil

/-- A registered name is that of a placeholder in some template if and only if trimming leaves it
alone and there is no separator in it. -/
theorem exists_kind_iff {name : String} (hname : name ∈ e.registry)
    (hother : name ≠ e.settings.fallback) :
    (∃ template, ∃ p ∈ (e.read template).placeholders, p.kind = name)
      ↔ Text.trim name.toList = name.toList ∧ BraceFree name.toList ∧ ':' ∉ name.toList := by
  constructor
  · rintro ⟨template, p, hp, rfl⟩
    have hnameable := (tidy_of_mem_placeholders hp).2.resolve_left hother
    exact ⟨hnameable.trim, hnameable.braces, hnameable.colon⟩
  · rintro ⟨htrim, hbraces, hcolon⟩
    have hnameable : Nameable e.registry name := ⟨hname, htrim, hbraces, hcolon⟩
    obtain ⟨template, p, hp, hfield⟩ :=
      exists_placeholder_iff.mpr ⟨tidy_plainField name, .inr hnameable⟩
    exact ⟨template, p, hp, congrArg Field.kind hfield⟩

/-- Templates reach a registered kind other than the fallback exactly if trimming leaves its name
alone and there is no separator in it.  All placeholders are of such a kind or of the fallback, and
their labels and defaults are tidy.  Nothing else is kept from a placeholder: every field like
that is the only one of some template without mistakes. -/
theorem placeholders_reach (e : Engine) :
    (∀ name, name ∈ e.registry → name ≠ e.settings.fallback →
        ((∃ template, ∃ p ∈ (e.read template).placeholders, p.kind = name)
          ↔ Text.trim name.toList = name.toList ∧ BraceFree name.toList ∧ ':' ∉ name.toList))
      ∧ (∀ template, ∀ p ∈ (e.read template).placeholders,
          p.toField.Tidy ∧ (p.kind = e.settings.fallback ∨ Nameable e.registry p.kind))
      ∧ ∀ f : Field, f.Tidy → f.kind = e.settings.fallback ∨ Nameable e.registry f.kind →
          ∃ template, (e.read template).IsValid
            ∧ (e.read template).placeholders.map Placeholder.toField = [f] := by
  refine ⟨?_, ?_, ?_⟩
  · intro name hname hother
    exact exists_kind_iff hname hother
  · intro template p hp
    exact tidy_of_mem_placeholders hp
  · intro f htidy hkind
    exact exists_template htidy hkind

/-- A name with a backslash at its end can be given, even with a default of that sort, but not a
name with a colon in it or a blank in front. -/
theorem placeholders_reach_backslash :
    let named : String → Kind := fun name => { Kind.freeText with name := .text name }
    let e : Engine :=
      ⟨.ofEntries ([named "a\\", named "b:c", named " d"].filterMap Kind.entry?), {}⟩
    e.registry.names = ["a\\", "b:c", " d"]
      ∧ (∃ template, ∃ p ∈ (e.read template).placeholders, p.kind = "a\\")
      ∧ (¬ ∃ template, ∃ p ∈ (e.read template).placeholders, p.kind = "b:c")
      ∧ (¬ ∃ template, ∃ p ∈ (e.read template).placeholders, p.kind = " d")
      ∧ ∃ template, (e.read template).IsValid
        ∧ (e.read template).placeholders.map Placeholder.toField = [⟨"A", "a\\", "x:y\\"⟩] := by
  intro named e
  obtain ⟨hnames, -, hfields⟩ := placeholders_reach e
  have hback : Nameable e.registry "a\\" := by decide +kernel
  refine ⟨by decide +kernel, ?_, ?_, ?_, ?_⟩
  · exact (hnames "a\\" hback.mem (by decide)).mpr ⟨hback.trim, hback.braces, hback.colon⟩
  · rw [hnames "b:c" (by decide +kernel) (by decide)]
    decide +kernel
  · rw [hnames " d" (by decide +kernel) (by decide)]
    decide +kernel
  · refine hfields _ ?_ (.inr hback)
    constructor <;> decide +kernel

end Engine

end QueryStencil
