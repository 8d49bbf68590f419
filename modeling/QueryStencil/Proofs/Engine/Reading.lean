/-
# `QueryStencil.Proofs.Engine.Reading` — what a reading reports

A hole is a placeholder or a mistake, and stray braces are further mistakes.
So the spans of the placeholders and of the malformed holes together are the
spans of all holes (`spans_perm`), and the holes are the occurrences of the
template.  `read_exact` puts the two together: every occurrence is reported
once, as the one or the other, in order and with its place in the text, and
the placeholders are counted from zero whatever is malformed between them.
-/
import QueryStencil.Engine.Basic
import QueryStencil.Proofs.Template.Balance

namespace QueryStencil

open Template

namespace Template

/-- The offsets at which a placeholder starts and stops. -/
def Placeholder.span (p : Placeholder) : Nat × Nat := (p.start, p.stop)

/-- The offsets at which a mistake starts and stops. -/
def Mistake.span (m : Mistake) : Nat × Nat := (m.start, m.stop)

/-- The offsets at which a hole starts and stops. -/
def Hole.span (h : Hole) : Nat × Nat := (h.start, h.stop)

/-- A fault of a single brace, not of a hole. -/
def Fault.IsStray : Fault → Prop
  | .strayCloser | .strayOpener => True
  | .emptyHole | .noLabel | .unknownKind .. => False

instance : DecidablePred Fault.IsStray
  | .strayCloser | .strayOpener => .isTrue trivial
  | .emptyHole | .noLabel | .unknownKind .. => .isFalse id

theorem Fault.not_isStray_of_ofContent {r : Registry} {fallback : String} {content : List Char}
    {fault : Fault} (h : Field.ofContent r fallback content = .error fault) :
    ¬ fault.IsStray := by
  by_cases hblank : Text.AllBlank content
  · simp only [Field.ofContent, if_pos hblank, Except.error.injEq] at h
    exact h ▸ id
  by_cases hlabel : Text.trim (Text.before ':' content) = []
  · simp only [Field.ofContent, if_neg hblank, if_pos hlabel, Except.error.injEq] at h
    exact h ▸ id
  simp only [Field.ofContent, if_neg hblank, if_neg hlabel] at h
  generalize (if Text.trim (Text.before ':' (Text.after ':' content)) = [] then fallback
    else String.ofList (Text.trim (Text.before ':' (Text.after ':' content)))) = kind at h
  split at h
  · rw [← Except.error.inj h]
    exact id
  · exact nomatch h

theorem Stray.isStray_mistake (template : String) (s : Stray) :
    (s.mistake template).fault.IsStray := by
  cases s <;> trivial

end Template

namespace Reading

/-- The mistakes of holes. -/
def malformed (r : Reading) : List Mistake := r.mistakes.filter fun m => ¬ m.fault.IsStray

/-- The mistakes of single braces. -/
def unbalanced (r : Reading) : List Mistake := r.mistakes.filter fun m => m.fault.IsStray

/-- The spans of all that was read as a hole, well formed or not. -/
def spans (r : Reading) : List (Nat × Nat) :=
  r.placeholders.map Placeholder.span ++ r.malformed.map Mistake.span

end Reading

/-- The source is the stretch of the text between the two offsets, and not empty. -/
structure Covers (cs : List Char) (start stop : Nat) (source : String) : Prop where
  start_lt : start < stop
  stop_le : stop ≤ cs.length
  source_eq : source.toList = slice cs start stop

/-- A reading reports the occurrences of a text, each of them once, and every
report has its place. -/
structure Reading.Exact (r : Reading) (cs : List Char) : Prop where
  mem_spans_iff : ∀ i j, (i, j) ∈ r.spans ↔ Occurrence cs i j
  spans_apart : r.spans.Pairwise fun s s' => s ≠ s' ∧ (s.2 ≤ s'.1 ∨ s'.2 ≤ s.1)
  placeholders_ascend : r.placeholders.Pairwise fun p q => p.start < q.start
  malformed_ascend : r.malformed.Pairwise fun m m' => m.start < m'.start
  malformed_first : r.mistakes = r.malformed ++ r.unbalanced
  ordinal_eq : ∀ (k : Nat) (p : Placeholder), r.placeholders[k]? = some p → p.ordinal = k
  placeholder_covers : ∀ p ∈ r.placeholders, Covers cs p.start p.stop p.source
  mistake_covers : ∀ m ∈ r.mistakes, Covers cs m.start m.stop m.source

/-- A year of four digits, written as it is shown.  The kind is not built in, and it refuses the
value that stands in for it. -/
def Kind.year : Kind where
  word := "Year"
  standIn := .text ""
  render := Value.display
  refusal? v :=
    if v.display.toList.length = 4 ∧ v.display.toList.all Char.isDigit then none
    else some ⟨"bad year"⟩
  name := .text "Year"
  expects := "a four-digit year"

namespace Engine

/-- The engine with nothing but the built-in kinds, and the settings as they come. -/
def standard : Engine := ⟨Registry.ofEntries (Kind.builtins.filterMap Kind.entry?), {}⟩

theorem build_nil : build [] {} = .ok standard := rfl

/-- The engine with years besides the built-in kinds. -/
def dated : Engine :=
  ⟨Registry.ofEntries ((Kind.builtins ++ [Kind.year]).filterMap Kind.entry?), {}⟩

variable (e : Engine)

/-! ## Placeholders and mistakes among holes -/

/-- The holes that say something, each with what it says. -/
def found (hs : List Hole) : List (Hole × Field) :=
  hs.filterMap fun h => (e.field h).toOption.map (h, ·)

theorem found_cons_of_ok {h : Hole} {f : Field} (hf : e.field h = .ok f) (hs : List Hole) :
    e.found (h :: hs) = (h, f) :: e.found hs :=
  List.filterMap_cons_some (by rw [hf]; rfl)

theorem found_cons_of_error {h : Hole} {fault : Fault} (hf : e.field h = .error fault)
    (hs : List Hole) : e.found (h :: hs) = e.found hs :=
  List.filterMap_cons_none (by rw [hf]; rfl)

theorem getElem?_placeholdersIn (hs : List Hole) (k : Nat) :
    (e.placeholdersIn hs)[k]? = (e.found hs)[k]?.map fun x => x.1.placeholder k x.2 :=
  List.getElem?_mapIdx

/-- What holds of every hole as a placeholder holds of all placeholders. -/
theorem forall_placeholdersIn {P : Placeholder → Prop} {hs : List Hole}
    (h : ∀ hole ∈ hs, ∀ ordinal f, P (hole.placeholder ordinal f)) :
    ∀ p ∈ e.placeholdersIn hs, P p := by
  intro p hp
  obtain ⟨k, hk, rfl⟩ := List.mem_mapIdx.mp hp
  have hmem := List.getElem_mem hk
  obtain ⟨hole, hhole, hfield⟩ := List.mem_filterMap.mp hmem
  obtain ⟨f, -, hpair⟩ := Option.map_eq_some_iff.mp hfield
  rw [← hpair]
  exact h hole hhole k f

theorem forall_mistakesIn {P : Mistake → Prop} {hs : List Hole}
    (h : ∀ hole ∈ hs, ∀ fault, e.field hole = .error fault → P (hole.mistake fault)) :
    ∀ m ∈ e.mistakesIn hs, P m := by
  intro m hm
  obtain ⟨hole, hhole, hfield⟩ := List.mem_filterMap.mp hm
  cases hf : e.field hole with
  | ok f => rw [hf] at hfield; exact nomatch hfield
  | error fault =>
      rw [hf] at hfield
      obtain rfl := Option.some.inj hfield
      exact h hole hhole fault hf

/-- Placeholders are counted from zero. -/
theorem ordinal_of_getElem?_placeholdersIn {hs : List Hole} {k : Nat} {p : Placeholder}
    (h : (e.placeholdersIn hs)[k]? = some p) : p.ordinal = k := by
  rw [getElem?_placeholdersIn] at h
  obtain ⟨x, -, rfl⟩ := Option.map_eq_some_iff.mp h
  rfl

theorem map_span_placeholdersIn (hs : List Hole) :
    (e.placeholdersIn hs).map Placeholder.span
      = (hs.filter fun h => (e.field h).toOption.isSome).map Hole.span := by
  -- a span has no ordinal in it
  have hcount : (e.placeholdersIn hs).map Placeholder.span
      = (e.found hs).map fun x => x.1.span := by
    refine List.ext_getElem? fun k => ?_
    rw [List.getElem?_map, getElem?_placeholdersIn, List.getElem?_map, Option.map_map]
    rfl
  rw [hcount]
  clear hcount
  induction hs with
  | nil => rfl
  | cons h hs ih =>
      cases hf : e.field h with
      | ok f =>
          rw [e.found_cons_of_ok hf, List.map_cons, ih, List.filter_cons_of_pos (by rw [hf]; rfl)]
          rfl
      | error fault =>
          rw [e.found_cons_of_error hf, ih,
            List.filter_cons_of_neg (by rw [hf]; exact Bool.false_ne_true)]

theorem mistakesIn_cons_of_ok {h : Hole} {f : Field} (hf : e.field h = .ok f) (hs : List Hole) :
    e.mistakesIn (h :: hs) = e.mistakesIn hs :=
  List.filterMap_cons_none (by rw [hf])

theorem mistakesIn_cons_of_error {h : Hole} {fault : Fault} (hf : e.field h = .error fault)
    (hs : List Hole) : e.mistakesIn (h :: hs) = h.mistake fault :: e.mistakesIn hs :=
  List.filterMap_cons_some (by rw [hf])

theorem map_span_mistakesIn (hs : List Hole) :
    (e.mistakesIn hs).map Mistake.span
      = (hs.filter fun h => !(e.field h).toOption.isSome).map Hole.span := by
  induction hs with
  | nil => rfl
  | cons h hs ih =>
      cases hf : e.field h with
      | ok f =>
          rw [e.mistakesIn_cons_of_ok hf, ih,
            List.filter_cons_of_neg (by rw [hf]; exact Bool.false_ne_true)]
      | error fault =>
          rw [e.mistakesIn_cons_of_error hf, List.map_cons, ih,
            List.filter_cons_of_pos (by rw [hf]; rfl)]
          rfl

/-- Every hole is a placeholder or a mistake, and none is both. -/
theorem map_span_perm (hs : List Hole) :
    ((e.placeholdersIn hs).map Placeholder.span ++ (e.mistakesIn hs).map Mistake.span).Perm
      (hs.map Hole.span) := by
  rw [map_span_placeholdersIn, map_span_mistakesIn, ← List.map_append]
  exact (List.filter_append_perm _ hs).map Hole.span

/-! ## The two kinds of mistakes of a reading -/

variable (template : String)

theorem not_isStray_of_mem_mistakesIn {hs : List Hole} {m : Mistake}
    (h : m ∈ e.mistakesIn hs) : ¬ m.fault.IsStray :=
  e.forall_mistakesIn (P := fun m => ¬ m.fault.IsStray)
    (fun _ _ _ hf => Fault.not_isStray_of_ofContent hf) m h

theorem isStray_of_mem_strays {m : Mistake}
    (h : m ∈ (strays template).map (Stray.mistake template)) : m.fault.IsStray := by
  obtain ⟨s, -, rfl⟩ := List.mem_map.mp h
  exact s.isStray_mistake template

theorem malformed_read : (e.read template).malformed = e.mistakesIn (holes template) := by
  rw [Reading.malformed, read, List.filter_append,
    List.filter_eq_self.mpr fun m h => decide_eq_true (e.not_isStray_of_mem_mistakesIn h),
    List.filter_eq_nil_iff.mpr fun m h => by simpa using isStray_of_mem_strays template h,
    List.append_nil]

theorem unbalanced_read :
    (e.read template).unbalanced = (strays template).map (Stray.mistake template) := by
  rw [Reading.unbalanced, read, List.filter_append,
    List.filter_eq_nil_iff.mpr fun m h => by simpa using e.not_isStray_of_mem_mistakesIn h,
    List.filter_eq_self.mpr fun m h => decide_eq_true (isStray_of_mem_strays template h),
    List.nil_append]

/-- The mistakes of holes come before those of single braces. -/
theorem mistakes_read :
    (e.read template).mistakes
      = (e.read template).malformed ++ (e.read template).unbalanced := by
  rw [malformed_read, unbalanced_read]
  rfl

/-! ## Sources of a reading -/

theorem covers_of_mem_holes {template : String} {hole : Hole} (h : hole ∈ holes template) :
    Covers template.toList hole.start hole.stop hole.source :=
  have hs := mem_holes_iff_standsIn.mp h
  ⟨hole.start_lt_stop, hs.stop_le, hs.source_eq_slice⟩

theorem covers_placeholder :
    ∀ p ∈ (e.read template).placeholders, Covers template.toList p.start p.stop p.source :=
  e.forall_placeholdersIn fun _ hmem _ _ => covers_of_mem_holes hmem

theorem covers_mistake_of_standsIn {s : Stray} (h : s.StandsIn template.toList) :
    let m := s.mistake template
    Covers template.toList m.start m.stop m.source := by
  have hlt : s.offset < template.toList.length := (List.getElem?_eq_some_iff.mp h.1).1
  cases s with
  | closer i =>
      have hslice : slice template.toList i (i + 1) = ['}'] := slice_self_succ h.1
      exact ⟨Nat.lt_succ_self i, hlt, (String.toList_ofList (l := ['}'])).trans hslice.symm⟩
  | opener i =>
      have hlength : template.toList.length = template.length := String.length_toList
      refine ⟨Nat.lt_of_lt_of_eq hlt hlength, Nat.le_of_eq hlength.symm, ?_⟩
      rw [Stray.mistake, String.toList_ofList, slice, ← hlength, List.take_length]

theorem covers_mistake :
    ∀ m ∈ (e.read template).mistakes, Covers template.toList m.start m.stop m.source := by
  intro m hm
  rcases List.mem_append.mp hm with hm | hm
  · exact e.forall_mistakesIn (P := fun m => Covers template.toList m.start m.stop m.source)
      (fun _ hmem _ _ => covers_of_mem_holes hmem) m hm
  · obtain ⟨s, hs, rfl⟩ := List.mem_map.mp hm
    exact covers_mistake_of_standsIn template (standsIn_of_mem_strays hs)

/-! ## Spans of a reading -/

theorem spans_perm : (e.read template).spans.Perm ((holes template).map Hole.span) := by
  rw [Reading.spans, malformed_read]
  exact e.map_span_perm (holes template)

theorem mem_spans_iff (i j : Nat) :
    (i, j) ∈ (e.read template).spans ↔ Occurrence template.toList i j := by
  rw [(e.spans_perm template).mem_iff, List.mem_map, ← mem_holes_iff]
  constructor
  · rintro ⟨hole, hmem, hspan⟩
    exact ⟨hole, hmem, congrArg Prod.fst hspan, congrArg Prod.snd hspan⟩
  · rintro ⟨hole, hmem, rfl, rfl⟩
    exact ⟨hole, hmem, rfl⟩

/-- The spans of some of the holes, in the order of the holes, are in ascending order. -/
theorem span_pairwise_of_sublist {spans : List (Nat × Nat)}
    (h : spans.Sublist ((holes template).map Hole.span)) :
    spans.Pairwise fun s s' => s.2 ≤ s'.1 ∧ s.1 < s'.1 := by
  refine List.Pairwise.sublist h (List.pairwise_map.mpr ?_)
  refine (holes_pairwise template).imp fun {a b} hab => ⟨hab, ?_⟩
  exact Nat.lt_of_lt_of_le a.start_lt_stop hab

theorem placeholders_span_pairwise :
    ((e.read template).placeholders.map Placeholder.span).Pairwise
      fun s s' => s.2 ≤ s'.1 ∧ s.1 < s'.1 := by
  refine span_pairwise_of_sublist template ?_
  rw [read, map_span_placeholdersIn]
  exact List.filter_sublist.map Hole.span

theorem malformed_span_pairwise :
    ((e.read template).malformed.map Mistake.span).Pairwise
      fun s s' => s.2 ≤ s'.1 ∧ s.1 < s'.1 := by
  refine span_pairwise_of_sublist template ?_
  rw [malformed_read, map_span_mistakesIn]
  exact List.filter_sublist.map Hole.span

/-- No two spans share an offset, and none is reported twice. -/
theorem spans_pairwise :
    (e.read template).spans.Pairwise fun s s' => s ≠ s' ∧ (s.2 ≤ s'.1 ∨ s'.2 ≤ s.1) := by
  refine (e.spans_perm template).symm.pairwise ?_ ?_
  · refine (span_pairwise_of_sublist template (List.Sublist.refl _)).imp ?_
    intro s s' h
    exact ⟨fun he => absurd h.2 (by rw [he]; exact Nat.lt_irrefl _), .inl h.1⟩
  · exact fun h => ⟨h.1.symm, h.2.symm⟩

theorem placeholders_ascend :
    (e.read template).placeholders.Pairwise fun p q => p.start < q.start :=
  (List.pairwise_map.mp (e.placeholders_span_pairwise template)).imp And.right

/-- A reading of a template reports its occurrences exactly: each one once, as a placeholder or
as a mistake, in order, with placeholders counted and everything in its place. -/
theorem read_exact : (e.read template).Exact template.toList where
  mem_spans_iff := e.mem_spans_iff template
  spans_apart := e.spans_pairwise template
  placeholders_ascend := e.placeholders_ascend template
  malformed_ascend :=
    (List.pairwise_map.mp (e.malformed_span_pairwise template)).imp And.right
  malformed_first := e.mistakes_read template
  ordinal_eq := fun _ _ => e.ordinal_of_getElem?_placeholdersIn
  placeholder_covers := e.covers_placeholder template
  mistake_covers := e.covers_mistake template

end Engine

end QueryStencil
