/-
# `QueryStencil.Proofs.Engine.Printing` — a printed template is read back

Reading undoes printing (`read_printed`): the fields come back as they were,
each in the place where it was printed, and the segments between them are the
literal texts with their escapes.

A printed template is a literal text, a field, and the rest of the printed
template.  Each of the first two can be read apart from what follows, because
neither leaves a brace open or a backslash at its end, so the proof is an
induction on the fields by the lemmas on templates one after the other.

A literal text alone is a template too, with nothing in it to fill
(`fill_escapeText`).  That needs no engine of any particular kind, and nothing
of the text: no backslash of the text is one of the printed escapes.
-/
import QueryStencil.Proofs.Engine.Concat
import QueryStencil.Proofs.Template.Printing

namespace QueryStencil

open Template

theorem Template.Field.shift_placedAt (f : Field) (n count ordinal start : Nat) :
    (f.placedAt ordinal start).shift n count = f.placedAt (count + ordinal) (n + start) := by
  simp only [Field.placedAt, Placeholder.shift, Nat.add_assoc]

namespace Engine

variable {e : Engine}

/-! ## The parts -/

theorem read_escapeText (s : String) :
    (e.read (escapeText s)).placeholders = [] ∧ (e.read (escapeText s)).mistakes = [] := by
  rw [read, holes_escapeText, strays_escapeText]
  exact ⟨rfl, rfl⟩

theorem read_printed_field {f : Field} (h : f.Printable e.registry) :
    (e.read f.printed).placeholders = [f.placedAt 0 0]
      ∧ (e.read f.printed).mistakes = [] := by
  have hfield : e.field ⟨0, f.content⟩ = .ok f := h.ofContent_content _
  have hlength : f.printed.length = f.content.length + 2 := by
    rw [← String.length_toList, toList_printed_field]
    simp
  have hsource : (⟨0, f.content⟩ : Hole).source = f.printed := (printed_eq_holeOf f).symm
  constructor
  · rw [read, holes_printed h, placeholdersIn, List.filterMap_cons_some (by rw [hfield]; rfl)]
    simp only [List.filterMap_nil, List.mapIdx_cons, List.mapIdx_nil, Hole.placeholder, hsource,
      Field.placedAt, hlength, Hole.stop, Nat.zero_add]
  · rw [read, holes_printed h, strays_printed h, e.mistakesIn_cons_of_ok hfield]
    rfl

/-! ## A literal text alone -/

theorem segments_escapeText (s : String) : e.segments (escapeText s) = [escape s.toList] := by
  rw [segments, (e.read_escapeText s).1, List.map_nil, gaps, List.drop_zero, toList_escapeText]

theorem spliced_escapeText (s : String) (values : List Value) :
    e.spliced (escapeText s) values = escape s.toList := by
  rw [spliced, segments_escapeText, (e.read_escapeText s).1, List.map_nil, interleave_nil,
    List.flatten_singleton]

/-- Any text at all can be written as a template with nothing to fill in it, and the filled
template is that text again, whatever backslashes the text has before its braces. -/
theorem fill_escapeText (e : Engine) (s : String) :
    let template := escapeText s
    (e.read template).placeholders = [] ∧ (e.read template).mistakes = []
      ∧ e.hasPlaceholders template = false
      ∧ ∀ values, (e.fill template values).text = s ∧ (e.fill template values).errors = [] := by
  intro template
  obtain ⟨hnone, hvalid⟩ := e.read_escapeText s
  refine ⟨hnone, hvalid, ?_, ?_⟩
  · rw [hasPlaceholders, holes_escapeText, List.any_nil]
  · intro values
    constructor
    · apply String.toList_inj.mp
      rw [toList_text_fill_spliced hvalid, spliced_escapeText, unescape_escape]
    · rw [Filled.errors, e.complaints_fill hvalid, hnone]
      rfl

/-! ## One literal text, one field, and the rest -/

section Step

variable {literal rest : String} {f : Field} (hend : literal.toList.getLast? ≠ some '\\')
  (hf : f.Printable e.registry)

include hend in
theorem escapedAfter_escapeText : escapedAfter false (escapeText literal).toList = false := by
  rw [toList_escapeText, escapedAfter_escape]
  exact escapedAfter_eq_false_iff.mpr hend

theorem escapedAfter_printed_field (f : Field) : escapedAfter false f.printed.toList = false := by
  rw [toList_printed_field]
  exact escapedAfter_hole false f.content

include hend hf in
theorem placeholders_printed_step :
    (e.read (escapeText literal ++ (f.printed ++ rest))).placeholders
      = f.placedAt 0 (escapeText literal).length ::
        (e.read rest).placeholders.map
          (Placeholder.shift ((escapeText literal).length + f.printed.length) 1) := by
  rw [placeholders_append (strays_escapeText literal) (escapedAfter_escapeText hend),
    placeholders_append (strays_printed hf) (escapedAfter_printed_field f),
    (e.read_escapeText literal).1, (read_printed_field hf).1, List.nil_append, List.map_append,
    List.map_singleton, List.map_map, Field.shift_placedAt, List.singleton_append,
    List.length_nil, List.length_singleton, Nat.add_zero, Nat.add_zero]
  refine congrArg (List.cons _) (List.map_congr_left fun p _ => ?_)
  rw [Function.comp_apply, Placeholder.shift_shift, Nat.zero_add]

include hend hf in
theorem mistakes_printed_step :
    (e.read (escapeText literal ++ (f.printed ++ rest))).mistakes
      = (e.read rest).mistakes.map
          (Mistake.shift ((escapeText literal).length + f.printed.length)) := by
  rw [mistakes_append (e.read_escapeText literal).2 (escapedAfter_escapeText hend),
    mistakes_append (read_printed_field hf).2 (escapedAfter_printed_field f), List.map_map]
  exact List.map_congr_left fun m _ => Mistake.shift_shift _ _ m

include hend hf in
theorem segments_printed_step :
    e.segments (escapeText literal ++ (f.printed ++ rest))
      = escape literal.toList :: e.segments rest := by
  have hspans : ((e.read rest).placeholders.map
        (Placeholder.shift ((escapeText literal).length + f.printed.length) 1)).map
          Placeholder.span
      = ((e.read rest).placeholders.map Placeholder.span).map
          (shiftSpan ((escapeText literal).toList ++ f.printed.toList).length) := by
    rw [List.map_map, List.map_map, List.length_append, String.length_toList, String.length_toList]
    rfl
  have hfirst : slice (((escapeText literal).toList ++ f.printed.toList) ++ rest.toList) 0
      (escapeText literal).length = escape literal.toList := by
    rw [List.append_assoc, ← String.length_toList, slice, List.take_left, List.drop_zero,
      toList_escapeText]
  have hstop : (f.placedAt 0 (escapeText literal).length).stop
      = ((escapeText literal).toList ++ f.printed.toList).length + 0 := by
    rw [List.length_append, String.length_toList, String.length_toList, Nat.add_zero,
      Field.placedAt]
  rw [segments, placeholders_printed_step hend hf, List.map_cons, hspans, String.toList_append,
    String.toList_append, ← List.append_assoc, Placeholder.span, gaps, hstop, gaps_shiftSpan,
    ← segments, Field.placedAt, hfirst]

end Step

/-! ## The whole template -/

/-- What is printed before a field, with one more field and text in front of it all. -/
theorem length_printed_cons (literal : String) (literals : List String) (f : Field)
    (fields : List Field) :
    (printed (literal :: literals) (f :: fields)).length
      = (escapeText literal).length + f.printed.length + (printed literals fields).length := by
  rw [printed_cons, String.length_append, String.length_append, Nat.add_assoc]

/-- The fields of a template in their places, and behind another text and field. -/
theorem map_shift_placed (literal : String) (literals : List String) (f : Field)
    (fields : List Field) :
    (fields.mapIdx fun k g =>
        g.placedAt k (printed (literals.take (k + 1)) (fields.take k)).length).map
      (Placeholder.shift ((escapeText literal).length + f.printed.length) 1)
    = fields.mapIdx fun k g =>
        g.placedAt (k + 1)
          (printed (literal :: literals.take (k + 1)) (f :: fields.take k)).length := by
  refine List.ext_getElem? fun k => ?_
  rw [List.getElem?_map, List.getElem?_mapIdx, List.getElem?_mapIdx, Option.map_map]
  refine Option.map_congr fun g _ => ?_
  rw [Function.comp_apply, Field.shift_placedAt, length_printed_cons, Nat.add_comm 1]

theorem read_printed_parts {literals : List String} {fields : List Field}
    (hlength : literals.length = fields.length + 1)
    (hends : ∀ l ∈ literals.dropLast, l.toList.getLast? ≠ some '\\')
    (hfields : ∀ f ∈ fields, f.Printable e.registry) :
    (e.read (printed literals fields)).mistakes = []
      ∧ (e.read (printed literals fields)).placeholders
        = (fields.mapIdx fun k f =>
            f.placedAt k (printed (literals.take (k + 1)) (fields.take k)).length)
      ∧ e.segments (printed literals fields) = literals.map fun l => escape l.toList := by
  induction fields generalizing literals with
  | nil =>
      obtain ⟨literal, rfl⟩ := List.length_eq_one_iff.mp hlength
      obtain ⟨hnone, hvalid⟩ := e.read_escapeText literal
      rw [printed_nil]
      refine ⟨hvalid, hnone, ?_⟩
      rw [segments_escapeText, List.map_singleton]
  | cons f fields ih =>
      cases literals with
      | nil => exact absurd hlength (Nat.succ_ne_zero _).symm
      | cons literal literals =>
          have hrest : literals.length = fields.length + 1 := Nat.succ.inj hlength
          have hne : literals ≠ [] := List.ne_nil_of_length_eq_add_one hrest
          rw [List.dropLast_cons_of_ne_nil hne] at hends
          obtain ⟨hend, hends⟩ := List.forall_mem_cons.mp hends
          obtain ⟨hf, hfields⟩ := List.forall_mem_cons.mp hfields
          obtain ⟨hmistakes, hplaceholders, hsegments⟩ := ih hrest hends hfields
          rw [printed_cons]
          refine ⟨?_, ?_, ?_⟩
          · rw [mistakes_printed_step hend hf, hmistakes, List.map_nil]
          · have hfirst :
                (printed ((literal :: literals).take (0 + 1)) ((f :: fields).take 0)).length
                  = (escapeText literal).length := congrArg String.length (printed_nil literal)
            rw [placeholders_printed_step hend hf, hplaceholders, map_shift_placed,
              List.mapIdx_cons, hfirst]
            simp only [List.take_succ_cons]
          · rw [segments_printed_step hend hf, hsegments, List.map_cons]

/-- A template that was printed from literal texts and fields is read without a mistake, to
these fields in the places where they were printed, and what stands between them is the
literal texts once escapes are undone. -/
theorem read_printed (e : Engine) (literals : List String) (fields : List Field)
    (hlength : literals.length = fields.length + 1)
    (hends : ∀ l ∈ literals.dropLast, l.toList.getLast? ≠ some '\\')
    (hfields : ∀ f ∈ fields, f.Printable e.registry) :
    let template := printed literals fields
    (e.read template).mistakes = []
      ∧ (e.read template).placeholders
        = (fields.mapIdx fun k f =>
            f.placedAt k (printed (literals.take (k + 1)) (fields.take k)).length)
      ∧ (e.segments template).map (fun cs => unescapeText (String.ofList cs)) = literals := by
  intro template
  obtain ⟨hmistakes, hplaceholders, hsegments⟩ := read_printed_parts hlength hends hfields
  refine ⟨hmistakes, hplaceholders, ?_⟩
  have hundone : ∀ l : String, unescapeText (String.ofList (escape l.toList)) = l := by
    intro l
    rw [unescapeText, String.toList_ofList, unescape_escape, String.ofList_toList]
  rw [hsegments, List.map_map]
  exact (List.map_congr_left fun l _ => hundone l).trans (List.map_id' literals)

/-- Braces and backslashes on both sides of fields, a default with colons, and none. -/
theorem read_printed_beside_escapes :
    let literals := ["\\\x7b = ", "\x7d \x7b", "\\"]
    let fields : List Field := [⟨"Site", "StringInput", "https://x:8"⟩, ⟨"N", "NumberInput", ""⟩]
    let template := printed literals fields
    template = "\\\\\x7b = \x7bSite:StringInput:https://x:8\x7d\\\x7d \\\x7b\x7bN:NumberInput:\x7d\\"
      ∧ literals.length = fields.length + 1
      ∧ (∀ l ∈ literals.dropLast, l.toList.getLast? ≠ some '\\')
      ∧ (∀ f ∈ fields, f.Printable standard.registry)
      ∧ (standard.read template).mistakes = []
      ∧ (standard.read template).placeholders = [(fields[0]).placedAt 0 6, (fields[1]).placedAt 1 41]
      ∧ (standard.segments template).map (fun cs => unescapeText (String.ofList cs)) = literals := by
  intro literals fields template
  have hlength : literals.length = fields.length + 1 := rfl
  have hends : ∀ l ∈ literals.dropLast, l.toList.getLast? ≠ some '\\' := by decide +kernel
  have hfields : ∀ f ∈ fields, f.Printable standard.registry := by decide +kernel
  obtain ⟨hmistakes, hplaceholders, hsegments⟩ :=
    read_printed standard literals fields hlength hends hfields
  exact ⟨by decide +kernel, hlength, hends, hfields, hmistakes,
    hplaceholders.trans (by decide +kernel), hsegments⟩

end Engine

end QueryStencil
