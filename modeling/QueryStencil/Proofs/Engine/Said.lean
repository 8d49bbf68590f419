/-
# `QueryStencil.Proofs.Engine.Said` — a template by what its holes say

A reading has offsets in it, and sources.  What it means has not: that is what
the placeholders say, and how they are counted (`Placeholder.said`).  This is
told by the contents of the holes alone (`map_said_placeholders`), and so is
whether the template is valid, but for stray braces (`isValid_read_iff`).

Nor does a filling depend on more.  Two valid templates whose placeholders say
the same have the same complaints about the same values
(`complaints_fill_of_said`), and if they have the same segments they make the
same query (`text_fill_of_said`).
-/
import QueryStencil.Proofs.Engine.Escapes
import QueryStencil.Proofs.Template.Recast

namespace QueryStencil

open Template

namespace Template

/-- What a placeholder says, and its number. -/
def Placeholder.said (p : Placeholder) : Field × Nat := (p.toField, p.ordinal)

/-- What depends on nothing but what placeholders say is the same where they say the same. -/
theorem map_of_said {α : Type} {f : Placeholder → α} (hf : ∀ p q, p.said = q.said → f p = f q)
    {ps qs : List Placeholder} (h : ps.map Placeholder.said = qs.map Placeholder.said) :
    ps.map f = qs.map f := by
  induction ps generalizing qs with
  | nil =>
      obtain rfl := List.map_eq_nil_iff.mp h.symm
      rfl
  | cons p ps ih =>
      obtain ⟨q, qs, rfl, hfirst, hrest⟩ := List.map_eq_cons_iff.mp h.symm
      rw [List.map_cons, List.map_cons, hf p q hfirst.symm, ih hrest.symm]

end Template

namespace Engine

variable {e : Engine} {s t : String}

/-! ## What contents say -/

/-- What content says to this engine, if it says anything. -/
def says? (e : Engine) (content : List Char) : Option Field :=
  (Field.ofContent e.registry e.settings.fallback content).toOption

theorem says?_eq_some_iff {content : List Char} {f : Field} :
    e.says? content = some f
      ↔ Field.ofContent e.registry e.settings.fallback content = .ok f := by
  rw [says?]
  cases Field.ofContent e.registry e.settings.fallback content with
  | ok g =>
      show some g = some f ↔ Except.ok g = Except.ok f
      rw [Option.some.injEq, Except.ok.injEq]
  | error fault =>
      refine iff_of_false (Option.some_ne_none f).symm ?_
      intro h
      cases h

/-- The fields of the placeholders are what the contents say, counted from zero. -/
theorem map_said_placeholdersIn (hs : List Hole) :
    (e.placeholdersIn hs).map Placeholder.said
      = ((hs.map Hole.content).filterMap e.says?).zipIdx := by
  have hfound : (hs.map Hole.content).filterMap e.says?
      = (e.found hs).map Prod.snd := by
    rw [found, List.filterMap_map, List.map_filterMap]
    refine List.filterMap_congr fun h _ => ?_
    rw [Option.map_map]
    exact Option.map_id'.symm
  rw [hfound]
  refine List.ext_getElem? fun k => ?_
  rw [List.getElem?_map, getElem?_placeholdersIn, List.getElem?_zipIdx, List.getElem?_map,
    Option.map_map, Option.map_map, Nat.zero_add]
  rfl

theorem map_said_placeholders (template : String) :
    (e.read template).placeholders.map Placeholder.said
      = ((contents (piecesOf template)).filterMap e.says?).zipIdx := by
  rw [read, map_said_placeholdersIn, holes, map_content_holesFrom]

/-- The fields alone. -/
theorem map_toField_placeholders (template : String) :
    (e.read template).placeholders.map Placeholder.toField
      = (contents (piecesOf template)).filterMap e.says? := by
  have hsaid := congrArg (List.map Prod.fst) (map_said_placeholders (e := e) template)
  rwa [List.map_map, List.zipIdx_map_fst] at hsaid

theorem mistakesIn_eq_nil_iff {hs : List Hole} :
    e.mistakesIn hs = [] ↔ ∀ content ∈ hs.map Hole.content, (e.says? content).isSome := by
  rw [mistakesIn, List.filterMap_eq_nil_iff, List.forall_mem_map]
  refine forall_congr' fun h => forall_congr' fun _ => ?_
  show _ ↔ (e.field h).toOption.isSome = true
  cases e.field h with
  | ok f => exact iff_of_true rfl rfl
  | error fault => exact iff_of_false (Option.some_ne_none _) Bool.false_ne_true

/-- A template is valid if every hole says something and no brace is stray. -/
theorem isValid_read_iff {template : String} :
    (e.read template).IsValid
      ↔ (∀ content ∈ contents (piecesOf template), (e.says? content).isSome)
        ∧ strays template = [] := by
  rw [Reading.IsValid, read, List.append_eq_nil_iff, mistakesIn_eq_nil_iff, List.map_eq_nil_iff,
    holes, map_content_holesFrom]

/-- The segments of a valid template are the stretches between all its holes. -/
theorem segments_of_isValid {template : String} (h : (e.read template).IsValid) :
    e.segments template = stretches (piecesOf template) := by
  have hspoken := (isValid_read_iff.mp h).1
  rw [← map_content_holesFrom 0, List.forall_mem_map] at hspoken
  have hspans : (e.read template).placeholders.map Placeholder.span
      = (holes template).map Hole.span := by
    rw [read, map_span_placeholdersIn, List.filter_eq_self.mpr]
    exact hspoken
  rw [segments, hspans, ← gaps_holesFrom (piecesOf template), piecesOf, flatMap_source_pieces]
  rfl

/-! ## What a filling depends on -/

theorem valueOf_of_said (values : List Value) {p q : Placeholder} (h : p.said = q.said) :
    e.valueOf values p = e.valueOf values q := by
  obtain ⟨hfield, hordinal⟩ := Prod.mk.inj h
  rw [valueOf, valueOf, standIn, standIn, hfield, hordinal]

theorem rejection?_of_said (values : List Value) {p q : Placeholder} (h : p.said = q.said) :
    e.rejection? p (e.valueOf values p) = e.rejection? q (e.valueOf values q) := by
  rw [valueOf_of_said values h, rejection?, rejection?, (Prod.mk.inj h).1]

theorem written_of_said (values : List Value) {p q : Placeholder} (h : p.said = q.said) :
    e.written values p = e.written values q := by
  rw [written, written, valueOf_of_said values h, (Prod.mk.inj h).1]

section Same

variable (hs : (e.read s).IsValid) (ht : (e.read t).IsValid)
  (hsaid : (e.read s).placeholders.map Placeholder.said
    = (e.read t).placeholders.map Placeholder.said)

include hs ht hsaid in
/-- Two valid templates have the same complaints if their placeholders say the same. -/
theorem complaints_fill_of_said (values : List Value) :
    (e.fill s values).complaints = (e.fill t values).complaints := by
  have hrejections : (e.read s).placeholders.filterMap
        (fun p => e.rejection? p (e.valueOf values p))
      = (e.read t).placeholders.filterMap fun p => e.rejection? p (e.valueOf values p) := by
    have hmap := map_of_said (fun _ _ => rejection?_of_said (e := e) values) hsaid
    have hfilter := congrArg (List.filterMap id) hmap
    rwa [List.filterMap_map, List.filterMap_map] at hfilter
  rw [e.complaints_fill hs, e.complaints_fill ht, hrejections]

include hs ht hsaid in
/-- If they have the same segments too, and no value is refused, they make the same query. -/
theorem text_fill_of_said (hsegments : e.segments s = e.segments t) {values : List Value}
    (hfilled : (e.fill t values).errors = []) :
    (e.fill s values).text = (e.fill t values).text := by
  have hfilled' : (e.fill s values).errors = [] := by
    rw [Filled.errors, complaints_fill_of_said hs ht hsaid]
    exact hfilled
  apply String.toList_inj.mp
  rw [toList_text_fill_spliced hs, toList_text_fill_spliced ht, spliced, spliced,
    map_rendition_of_accepted ((errors_fill_eq_nil_iff hs values).mp hfilled'),
    map_rendition_of_accepted ((errors_fill_eq_nil_iff ht values).mp hfilled), hsegments,
    map_of_said (fun _ _ => written_of_said values) hsaid]

end Same

end Engine

end QueryStencil
