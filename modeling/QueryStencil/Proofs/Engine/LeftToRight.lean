/-
# `QueryStencil.Proofs.Engine.LeftToRight` — filling, read from left to right

`fill` writes values over a template from right to left, by the offsets of the
template as it was read.  `fillFromLeft` says what should come out without any
offset into a half-filled text: the gaps between the placeholders, from left
to right, with a text between them that stands for each placeholder.  Its messages
are spelled out as well, down to the value at the end (`Value.described`).

`fill_eq_fillFromLeft` is their agreement.  The invariant of the loop is
`foldr_write`: up to the last placeholder that is still to come the text is
the template, and after it everything is in its final form.
-/
import Mathlib.Data.List.Basic
import QueryStencil.Proofs.Engine.Reading
import QueryStencil.Proofs.Template.Interleave
import QueryStencil.Proofs.Value.Wording

namespace QueryStencil

open Template

namespace Engine

variable (e : Engine)

/-! ## The reference -/

/-- The value for the placeholder at a position: the one that is supplied
there, and the default if it is absent, null or empty. -/
def valueAt (values : List Value) (position : Nat) (p : Placeholder) : Value :=
  let default := if p.standIn ≠ "" then .text p.standIn else e.registry.standIn p.kind
  match values[position]? with
  | some v => if v ≠ .null ∧ v ≠ .text "" then v else default
  | none => default

/-- Values are checked, and the kind of the placeholder refuses this one. -/
def Refuses (p : Placeholder) (v : Value) : Prop :=
  e.settings.checks = true ∧ (e.registry.refusal? p.kind v).isSome = true

instance (p : Placeholder) (v : Value) : Decidable (e.Refuses p v) :=
  inferInstanceAs (Decidable (_ ∧ _))

/-- What stands for a placeholder: itself if its value is refused, else the value as query
syntax. -/
def rendition (p : Placeholder) (v : Value) : String :=
  if e.Refuses p v then p.source else e.registry.render p.kind v

/-- The message about a refused value, if it is refused. -/
def objection? (p : Placeholder) (v : Value) : Option String :=
  let expects := ((e.registry.find? p.kind).map Kind.expects).getD "a valid value"
  if e.Refuses p v then
    some ("Parameter \"" ++ p.label ++ "\" expects " ++ expects ++ ", got: " ++ v.described)
  else none

/-- The text and the messages of a filled template. -/
def fillFromLeft (template : String) (values : List Value) : String × List String :=
  let reading := e.read template
  if reading.IsValid then
    let found := reading.placeholders.mapIdx fun k p => (p, e.valueAt values k p)
    let between := gaps template.toList 0 (reading.placeholders.map Placeholder.span)
    let texts := found.map fun x => (e.rendition x.1 x.2).toList
    (unescapeText (String.ofList (interleave between texts)),
      (found.filterMap fun x => e.objection? x.1 x.2).reverse)
  else (template, reading.messages)

/-! ## One placeholder -/

theorem valueAt_ordinal (values : List Value) (p : Placeholder) :
    e.valueAt values p.ordinal p = e.valueOf values p := by
  have hdefault : (if p.standIn ≠ "" then Value.text p.standIn else e.registry.standIn p.kind)
      = e.standIn p := by
    rw [standIn, ite_not]
  rw [valueAt, valueOf, hdefault]
  cases values[p.ordinal]? with
  | none => simp [Value.IsMissing]
  | some v =>
      by_cases h : v.IsMissing
      · have hv : ¬ (v ≠ .null ∧ v ≠ .text "") := fun hv => h.elim hv.1 hv.2
        simp only [Option.getD_some, if_pos h, if_neg hv]
      · have hv : v ≠ .null ∧ v ≠ .text "" := ⟨fun hv => h (.inl hv), fun hv => h (.inr hv)⟩
        simp only [Option.getD_some, if_neg h, if_pos hv]

/-- The rejection of a refused value, with the words of the kind that refuses it. -/
theorem rejection?_eq (p : Placeholder) (v : Value) :
    e.rejection? p v
      = if e.Refuses p v then
          some ⟨p.label, ((e.registry.find? p.kind).map Kind.expects).getD "a valid value", v⟩
        else none := by
  by_cases hchecks : e.settings.checks = true
  · cases hk : e.registry.find? p.kind with
    | none => simp [rejection?, Refuses, Registry.refusal?, hchecks, hk]
    | some k => simp [rejection?, Refuses, Registry.refusal?, hchecks, hk]
  · simp [rejection?, Refuses, hchecks]

theorem objection?_eq (p : Placeholder) (v : Value) :
    e.objection? p v = (e.rejection? p v).map Rejection.message := by
  rw [objection?, rejection?_eq, Value.described_eq_mention]
  split <;> rfl

theorem write_rejections (values : List Value) (d : Draft) (p : Placeholder) :
    (e.write values d p).rejections
      = d.rejections ++ (e.rejection? p (e.valueOf values p)).toList := by
  rw [write]
  cases e.rejection? p (e.valueOf values p) <;> simp

/-- One step of the loop: the span of the placeholder gets its final form. -/
theorem write_text {values : List Value} {d : Draft} {p : Placeholder} {cs rest : List Char}
    (hcovers : Covers cs p.start p.stop p.source) (htext : d.text = cs.take p.stop ++ rest) :
    (e.write values d p).text
      = cs.take p.start ++ (e.rendition p (e.valueOf values p)).toList ++ rest := by
  have hspan := Nat.le_of_lt hcovers.start_lt
  rw [write, rendition, rejection?_eq]
  by_cases h : e.Refuses p (e.valueOf values p)
  · simp only [if_pos h]
    rw [htext, hcovers.source_eq, take_append_slice cs hspan]
  · simp only [if_neg h]
    rw [htext, p.overwrite_take_append _ _ hspan hcovers.stop_le]

/-! ## The loop -/

/-- What is written from the right: in front of the placeholders that are done
the template, and from there on the gaps with the final texts between them. -/
theorem foldr_write (values : List Value) {cs : List Char} {offset : Nat} {ps : List Placeholder}
    (hcovers : ∀ p ∈ ps, Covers cs p.start p.stop p.source)
    (hascending : Ascending cs offset (ps.map Placeholder.span)) :
    let d := ps.foldr (fun p d => e.write values d p) ⟨cs, []⟩
    let texts := ps.map fun p => (e.rendition p (e.valueOf values p)).toList
    d.text = cs.take offset ++ interleave (gaps cs offset (ps.map Placeholder.span)) texts
      ∧ d.rejections = (ps.filterMap fun p => e.rejection? p (e.valueOf values p)).reverse := by
  induction ps generalizing offset with
  | nil => simp [gaps, interleave]
  | cons p ps ih =>
      obtain ⟨hoffset, -, hrest⟩ := hascending
      obtain ⟨hp, hps⟩ := List.forall_mem_cons.mp hcovers
      obtain ⟨htext, hrejections⟩ := ih hps hrest
      constructor
      · rw [List.foldr_cons, e.write_text hp htext, ← take_append_slice cs hoffset]
        simp only [List.map_cons, Placeholder.span, gaps, interleave, List.append_assoc]
      · rw [List.foldr_cons, write_rejections, hrejections, List.filterMap_cons]
        cases e.rejection? p (e.valueOf values p) <;> simp

/-- Placeholders stand one after the other. -/
theorem ascending_placeholders (template : String) :
    Ascending template.toList 0 ((e.read template).placeholders.map Placeholder.span) := by
  refine ascending_of_pairwise (Nat.zero_le _) (fun s _ => Nat.zero_le _) ?_
    ((e.placeholders_span_pairwise template).imp And.left)
  intro s hs
  obtain ⟨p, hp, rfl⟩ := List.mem_map.mp hs
  have hcovers := e.covers_placeholder template p hp
  exact ⟨Nat.le_of_lt hcovers.start_lt, hcovers.stop_le⟩

/-- By position is by ordinal. -/
theorem mapIdx_placeholders {α : Type} (template : String) (f : Nat → Placeholder → α) :
    (e.read template).placeholders.mapIdx f
      = (e.read template).placeholders.map fun p => f p.ordinal p := by
  refine List.ext_getElem? fun k => ?_
  rw [List.getElem?_mapIdx, List.getElem?_map]
  cases h : (e.read template).placeholders[k]? with
  | none => rfl
  | some p => rw [Option.map_some, Option.map_some, e.ordinal_of_getElem?_placeholdersIn h]

/-- With the placeholders as they stand between the gaps, the gaps are the template. -/
theorem interleave_gaps_sources (template : String) :
    interleave (gaps template.toList 0 ((e.read template).placeholders.map Placeholder.span))
      ((e.read template).placeholders.map fun p => p.source.toList) = template.toList := by
  have hslices : ((e.read template).placeholders.map fun p => p.source.toList)
      = ((e.read template).placeholders.map Placeholder.span).map
          fun s => slice template.toList s.1 s.2 := by
    rw [List.map_map]
    exact List.map_congr_left fun p hp => (e.covers_placeholder template p hp).source_eq
  rw [hslices, interleave_gaps_slices (e.ascending_placeholders template), List.drop_zero]

/-- What stands before, between and after the placeholders of a template. -/
def segments (template : String) : List (List Char) :=
  gaps template.toList 0 ((e.read template).placeholders.map Placeholder.span)

theorem length_segments (template : String) :
    (e.segments template).length = (e.read template).placeholders.length + 1 := by
  rw [segments, length_gaps, List.length_map]

/-- A template with everything written in, and with its escapes as they are. -/
def spliced (template : String) (values : List Value) : List Char :=
  interleave (e.segments template)
    ((e.read template).placeholders.map fun p => (e.rendition p (e.valueOf values p)).toList)

/-- The text of a filled template: the gaps of the template with the final texts between them. -/
theorem text_fill {template : String} (h : (e.read template).IsValid) (values : List Value) :
    (e.fill template values).text
      = unescapeText (String.ofList (interleave
          (gaps template.toList 0 ((e.read template).placeholders.map Placeholder.span))
          ((e.read template).placeholders.map fun p =>
            (e.rendition p (e.valueOf values p)).toList))) := by
  obtain ⟨htext, -⟩ := e.foldr_write values (e.covers_placeholder template)
    (e.ascending_placeholders template)
  simp only [fill, if_pos h, List.foldl_reverse, htext]
  simp [unescapeText]

/-- The complaints about a filled template: its rejections, from right to left. -/
theorem complaints_fill {template : String} (h : (e.read template).IsValid)
    (values : List Value) :
    (e.fill template values).complaints
      = ((e.read template).placeholders.filterMap fun p =>
          e.rejection? p (e.valueOf values p)).reverse.map .rejected := by
  obtain ⟨-, hrejections⟩ := e.foldr_write values (e.covers_placeholder template)
    (e.ascending_placeholders template)
  simp only [fill, if_pos h, List.foldl_reverse, hrejections]

/-- A template with mistakes stays as it is, and the mistakes are the complaints. -/
theorem fill_of_not_isValid {template : String} (h : ¬ (e.read template).IsValid)
    (values : List Value) :
    e.fill template values = ⟨template, (e.read template).mistakes.map .malformed⟩ := by
  simp only [fill, if_neg h]

/-- Values matter to a filling only as the values of its placeholders. -/
theorem fill_congr {template : String} {values values' : List Value}
    (h : ∀ p ∈ (e.read template).placeholders, e.valueOf values p = e.valueOf values' p) :
    e.fill template values = e.fill template values' := by
  have hwrite : ∀ d, ∀ p ∈ (e.read template).placeholders.reverse,
      e.write values d p = e.write values' d p := by
    intro d p hp
    rw [write, write, h p (List.mem_reverse.mp hp)]
  simp only [fill, List.foldl_ext _ _ _ hwrite]

/-- Filling from right to left by the offsets of the template is filling from
left to right between its gaps, and the gaps with the placeholders as they
stand are the template. -/
theorem fill_eq_fillFromLeft (template : String) (values : List Value) :
    let spans := (e.read template).placeholders.map Placeholder.span
    let sources := (e.read template).placeholders.map fun p => p.source.toList
    ((e.fill template values).text, (e.fill template values).errors)
        = e.fillFromLeft template values
      ∧ Ascending template.toList 0 spans
      ∧ interleave (gaps template.toList 0 spans) sources = template.toList := by
  refine ⟨?_, e.ascending_placeholders template, e.interleave_gaps_sources template⟩
  by_cases h : (e.read template).IsValid
  · have herrors : (e.fill template values).errors
        = ((e.read template).placeholders.filterMap fun p =>
            e.objection? p (e.valueOf values p)).reverse := by
      rw [Filled.errors, e.complaints_fill h, List.map_map, List.map_reverse, List.map_filterMap]
      simp only [objection?_eq]
      rfl
    simp only [fillFromLeft, if_pos h, mapIdx_placeholders, List.map_map, List.filterMap_map,
      e.text_fill h, herrors]
    simp only [Function.comp_def, valueAt_ordinal]
  · rw [e.fill_of_not_isValid h, fillFromLeft, if_neg h, Filled.errors, List.map_map]
    rfl

end Engine

end QueryStencil
