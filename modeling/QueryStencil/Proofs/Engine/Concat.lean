/-
# `QueryStencil.Proofs.Engine.Concat` — a query made of two templates

If the first of two templates is valid and does not end in a backslash, the
two can be read apart: its placeholders come first, and then those of the
second with their place and their number moved on.  The mistakes are those of
the second, since the first has none.

Filling goes with it when both are valid (`spliced_append`), up to the escapes:
they are undone in the filled text as a whole, and there a value at the end of
the first template could bring a backslash to a brace of the second.  No
built-in kind writes such a value, and a value that is refused leaves a
closing brace (`escapedAfter_spliced`).
-/
import QueryStencil.Proofs.Engine.Delimiters
import QueryStencil.Proofs.Engine.Noninterference
import QueryStencil.Proofs.Template.Concat

namespace QueryStencil

open Template

namespace Template

/-- The placeholder in a text that is preceded by `n` more characters, among
them `count` more placeholders. -/
def Placeholder.shift (n count : Nat) (p : Placeholder) : Placeholder :=
  { p with ordinal := count + p.ordinal, start := n + p.start, stop := n + p.stop }

/-- The mistake in a text that is preceded by `n` more characters. -/
def Mistake.shift (n : Nat) (m : Mistake) : Mistake :=
  { m with start := n + m.start, stop := n + m.stop }

theorem Placeholder.shift_shift (m n count count' : Nat) (p : Placeholder) :
    (p.shift n count').shift m count = p.shift (m + n) (count + count') := by
  simp only [Placeholder.shift, Nat.add_assoc]

theorem Mistake.shift_shift (m n : Nat) (x : Mistake) :
    (x.shift n).shift m = x.shift (m + n) := by
  simp only [Mistake.shift, Nat.add_assoc]

theorem Hole.stop_shift (n : Nat) (h : Hole) : (h.shift n).stop = n + h.stop := by
  simp only [Hole.stop, Hole.shift, Nat.add_assoc]

theorem Hole.placeholder_shift (n count ordinal : Nat) (h : Hole) (f : Field) :
    (h.shift n).placeholder (count + ordinal) f
      = (h.placeholder ordinal f).shift n count := by
  rw [Hole.placeholder, Hole.stop_shift]
  rfl

theorem Hole.mistake_shift (n : Nat) (h : Hole) (fault : Fault) :
    (h.shift n).mistake fault = (h.mistake fault).shift n := by
  rw [Hole.mistake, Hole.stop_shift]
  rfl

theorem Stray.mistake_shift (s t : String) (x : Stray) :
    (x.shift s.length).mistake (s ++ t) = (x.mistake t).shift s.length := by
  cases x with
  | closer offset => rfl
  | opener offset =>
      have hdrop : (s ++ t).toList.drop (s.length + offset) = t.toList.drop offset := by
        rw [String.toList_append, ← String.length_toList, List.drop_length_add_append]
      simp only [Stray.shift, Stray.mistake, Mistake.shift, hdrop, String.length_append]

end Template

namespace Engine

variable {e : Engine} {s t : String}

/-! ## Reading -/

theorem placeholdersIn_append (hs hs' : List Hole) (n : Nat) :
    e.placeholdersIn (hs ++ hs'.map (Hole.shift n))
      = e.placeholdersIn hs
        ++ (e.placeholdersIn hs').map (Placeholder.shift n (e.placeholdersIn hs).length) := by
  have hfound : (hs'.map (Hole.shift n)).filterMap (fun h => (e.field h).toOption.map (h, ·))
      = (e.found hs').map fun x => (x.1.shift n, x.2) := by
    rw [found, List.filterMap_map, List.map_filterMap]
    congr 1
    funext h
    rw [Option.map_map]
    rfl
  rw [placeholdersIn, List.filterMap_append, List.mapIdx_append, hfound]
  congr 1
  refine List.ext_getElem? fun k => ?_
  rw [List.getElem?_mapIdx, List.getElem?_map, List.getElem?_map, getElem?_placeholdersIn,
    Option.map_map, Option.map_map, placeholdersIn, List.length_mapIdx]
  congr 1
  funext x
  rw [Function.comp_apply, Function.comp_apply, Nat.add_comm k]
  exact Hole.placeholder_shift _ _ _ _ _

theorem mistakesIn_shift (hs : List Hole) (n : Nat) :
    e.mistakesIn (hs.map (Hole.shift n)) = (e.mistakesIn hs).map (Mistake.shift n) := by
  induction hs with
  | nil => rfl
  | cons h hs ih =>
      have hsame : e.field (h.shift n) = e.field h := rfl
      cases hf : e.field h with
      | ok f =>
          rw [List.map_cons, e.mistakesIn_cons_of_ok (hsame.trans hf), ih,
            e.mistakesIn_cons_of_ok hf]
      | error fault =>
          rw [List.map_cons, e.mistakesIn_cons_of_error (hsame.trans hf), ih,
            e.mistakesIn_cons_of_error hf, List.map_cons, Hole.mistake_shift]

theorem placeholders_append (hstrays : strays s = [])
    (hend : escapedAfter false s.toList = false) :
    (e.read (s ++ t)).placeholders
      = (e.read s).placeholders ++ (e.read t).placeholders.map
          (Placeholder.shift s.length (e.read s).placeholders.length) := by
  rw [read, holes_append hstrays hend]
  exact placeholdersIn_append _ _ _

theorem mistakes_append (hvalid : (e.read s).IsValid)
    (hend : escapedAfter false s.toList = false) :
    (e.read (s ++ t)).mistakes = (e.read t).mistakes.map (Mistake.shift s.length) := by
  have hstrays := strays_of_isValid hvalid
  have hholes : e.mistakesIn (holes s) = [] := (List.append_eq_nil_iff.mp hvalid).1
  have hrest : ((strays t).map (Stray.shift s.length)).map (Stray.mistake (s ++ t))
      = ((strays t).map (Stray.mistake t)).map (Mistake.shift s.length) := by
    rw [List.map_map, List.map_map]
    exact List.map_congr_left fun x _ => Stray.mistake_shift s t x
  rw [read, holes_append hstrays hend, strays_append hstrays hend, mistakesIn,
    List.filterMap_append, ← mistakesIn, hholes, List.nil_append, ← mistakesIn, mistakesIn_shift,
    hrest, ← List.map_append]
  rfl

/-! ## Values -/

/-- The placeholders of the first template take the first values. -/
theorem valueOf_take (values : List Value) {p : Placeholder}
    (hp : p ∈ (e.read s).placeholders) :
    e.valueOf (values.take (e.read s).placeholders.length) p = e.valueOf values p := by
  obtain ⟨k, hk⟩ := List.mem_iff_getElem?.mp hp
  have hlt : k < (e.read s).placeholders.length := (List.getElem?_eq_some_iff.mp hk).1
  refine valueOf_congr ?_
  rw [e.ordinal_of_getElem?_placeholdersIn hk, List.getElem?_take_of_lt hlt]

/-- Those of the second take the values after these. -/
theorem valueOf_shift (values : List Value) (n count : Nat) (p : Placeholder) :
    e.valueOf values (p.shift n count) = e.valueOf (values.drop count) p := by
  have hplace : (values.drop count)[p.ordinal]? = values[count + p.ordinal]? :=
    List.getElem?_drop
  rw [valueOf, valueOf, hplace]
  rfl

/-! ## Writing -/

theorem spliced_append (hstrays : strays s = []) (hend : escapedAfter false s.toList = false)
    (values : List Value) :
    let n := (e.read s).placeholders.length
    e.spliced (s ++ t) values
      = e.spliced s (values.take n) ++ e.spliced t (values.drop n) := by
  intro n
  have hspans : ((e.read t).placeholders.map (Placeholder.shift s.length n)).map Placeholder.span
      = ((e.read t).placeholders.map Placeholder.span).map (shiftSpan s.toList.length) := by
    rw [List.map_map, List.map_map, String.length_toList]
    rfl
  have hfirst : ((e.read s).placeholders.map fun p =>
        (e.rendition p (e.valueOf values p)).toList)
      = (e.read s).placeholders.map fun p =>
          (e.rendition p (e.valueOf (values.take n) p)).toList :=
    List.map_congr_left fun p hp => by rw [valueOf_take values hp]
  have hsecond : (((e.read t).placeholders.map (Placeholder.shift s.length n)).map fun p =>
        (e.rendition p (e.valueOf values p)).toList)
      = (e.read t).placeholders.map fun p =>
          (e.rendition p (e.valueOf (values.drop n) p)).toList := by
    rw [List.map_map]
    refine List.map_congr_left fun p _ => ?_
    rw [Function.comp_apply, valueOf_shift]
    rfl
  rw [spliced, segments, placeholders_append hstrays hend, List.map_append, List.map_append,
    hspans, hfirst, hsecond, String.toList_append,
    interleave_gaps_append _ (e.ascending_placeholders s) (by simp only [List.length_map])]
  rfl

/-! ## The end of what is written -/

theorem escapedAfter_drop {cs : List Char} (h : escapedAfter false cs = false) (i : Nat) :
    escapedAfter false (cs.drop i) = false := by
  cases hrest : cs.drop i with
  | nil => rfl
  | cons c rest =>
      rw [← List.take_append_drop i cs, escapedAfter_append, hrest] at h
      exact h

/-- Texts between gaps leave no backslash at the end if none of them does, and the text of the
gaps does not. -/
theorem escapedAfter_interleave_gaps {cs : List Char} {offset : Nat} {spans : List (Nat × Nat)}
    {texts : List (List Char)} (hlength : texts.length = spans.length)
    (htexts : ∀ text ∈ texts, text ≠ [] ∧ escapedAfter false text = false)
    (hend : escapedAfter false cs = false) :
    escapedAfter false (interleave (gaps cs offset spans) texts) = false := by
  induction spans generalizing offset texts with
  | nil =>
      obtain rfl := List.length_eq_zero_iff.mp hlength
      rw [interleave_nil, gaps, List.flatten_singleton]
      exact escapedAfter_drop hend offset
  | cons span spans ih =>
      cases texts with
      | nil => exact absurd hlength (Nat.succ_ne_zero _).symm
      | cons text texts =>
          obtain ⟨⟨hne, hback⟩, hrest⟩ := List.forall_mem_cons.mp htexts
          rw [gaps, interleave, escapedAfter_append, escapedAfter_append,
            escapedAfter_of_ne_nil hne _ false, hback]
          exact ih (Nat.succ.inj hlength) hrest

theorem source_closed (s : String) : ∀ p ∈ (e.read s).placeholders,
    p.source.toList ≠ [] ∧ escapedAfter false p.source.toList = false := by
  refine e.forall_placeholdersIn fun hole _ ordinal f => ?_
  show hole.source.toList ≠ [] ∧ escapedAfter false hole.source.toList = false
  rw [Hole.source, String.toList_ofList]
  exact ⟨List.cons_ne_nil _ _, escapedAfter_hole false hole.content⟩

theorem rendition_closed (hregistry : e.registry.BuiltinOnly) {p : Placeholder}
    (hp : p ∈ (e.read s).placeholders) (v : Value) :
    (e.rendition p v).toList ≠ [] ∧ escapedAfter false (e.rendition p v).toList = false := by
  rw [rendition]
  split
  · exact source_closed s p hp
  · have hsealed := (interchangeable_render hregistry (p := p) (.inr (rfl : v = v))).sealed_left
    exact ⟨hsealed.ne_nil, hsealed.back⟩

theorem escapedAfter_spliced (hregistry : e.registry.BuiltinOnly)
    (hend : escapedAfter false s.toList = false) (values : List Value) :
    escapedAfter false (e.spliced s values) = false := by
  refine escapedAfter_interleave_gaps (by simp only [List.length_map]) ?_ hend
  intro text htext
  obtain ⟨p, hp, rfl⟩ := List.mem_map.mp htext
  exact rendition_closed hregistry hp _

/-! ## Filling -/

theorem text_fill_append (hregistry : e.registry.BuiltinOnly) (hs : (e.read s).IsValid)
    (ht : (e.read t).IsValid) (hst : (e.read (s ++ t)).IsValid)
    (hend : escapedAfter false s.toList = false) (values : List Value) :
    let n := (e.read s).placeholders.length
    (e.fill (s ++ t) values).text
      = (e.fill s (values.take n)).text ++ (e.fill t (values.drop n)).text := by
  intro n
  apply String.toList_inj.mp
  rw [String.toList_append, toList_text_fill_spliced hst, toList_text_fill_spliced hs,
    toList_text_fill_spliced ht, spliced_append (strays_of_isValid hs) hend]
  exact unescape_append (.inl (escapedAfter_spliced hregistry hend _))

theorem complaints_fill_append (hs : (e.read s).IsValid) (ht : (e.read t).IsValid)
    (hst : (e.read (s ++ t)).IsValid) (hend : escapedAfter false s.toList = false)
    (values : List Value) :
    let n := (e.read s).placeholders.length
    (e.fill (s ++ t) values).complaints
      = (e.fill t (values.drop n)).complaints ++ (e.fill s (values.take n)).complaints := by
  intro n
  have hfirst : (e.read s).placeholders.filterMap (fun p => e.rejection? p (e.valueOf values p))
      = (e.read s).placeholders.filterMap fun p =>
          e.rejection? p (e.valueOf (values.take n) p) :=
    List.filterMap_congr fun p hp => by rw [valueOf_take values hp]
  have hsecond : ((e.read t).placeholders.map (Placeholder.shift s.length n)).filterMap
        (fun p => e.rejection? p (e.valueOf values p))
      = (e.read t).placeholders.filterMap fun p =>
          e.rejection? p (e.valueOf (values.drop n) p) := by
    rw [List.filterMap_map]
    refine List.filterMap_congr fun p _ => ?_
    rw [Function.comp_apply, valueOf_shift]
    rfl
  rw [e.complaints_fill hst, e.complaints_fill hs, e.complaints_fill ht,
    placeholders_append (strays_of_isValid hs) hend, List.filterMap_append, hfirst, hsecond,
    List.reverse_append, List.map_append]

/-- A template after a valid one that does not end in a backslash: the first is read as it
is alone, the second as it is alone but further on, and if both are valid then each is filled
by its own part of the values. -/
theorem read_fill_append (e : Engine) (s t : String) (hvalid : (e.read s).IsValid)
    (hend : s.toList.getLast? ≠ some '\\') :
    let n := (e.read s).placeholders.length
    (e.read (s ++ t)).placeholders
        = (e.read s).placeholders ++ (e.read t).placeholders.map (Placeholder.shift s.length n)
      ∧ (e.read (s ++ t)).mistakes = (e.read t).mistakes.map (Mistake.shift s.length)
      ∧ ((e.read t).IsValid → e.registry.BuiltinOnly → ∀ values,
          (e.fill (s ++ t) values).text
              = (e.fill s (values.take n)).text ++ (e.fill t (values.drop n)).text
            ∧ (e.fill (s ++ t) values).errors
              = (e.fill t (values.drop n)).errors ++ (e.fill s (values.take n)).errors) := by
  intro n
  have hflag := escapedAfter_eq_false_iff.mpr hend
  have hmistakes := mistakes_append (t := t) hvalid hflag
  refine ⟨placeholders_append (strays_of_isValid hvalid) hflag, hmistakes, ?_⟩
  intro ht hregistry values
  have hboth : (e.read (s ++ t)).IsValid := by
    rw [Reading.IsValid, hmistakes, show (e.read t).mistakes = [] from ht, List.map_nil]
  refine ⟨text_fill_append hregistry hvalid ht hboth hflag values, ?_⟩
  rw [Filled.errors, complaints_fill_append hvalid ht hboth hflag, List.map_append]
  rfl

/-- A template that ends in balanced braces around a placeholder, and one that begins where a
value is refused. -/
theorem read_fill_append_around :
    let s := "n = \x7b\x7bA\x7d\x7d"
    let t := "\x7bN:NumberInput\x7d\\\x7d"
    let values := [.text "\\", .text "many"]
    (standard.read s).IsValid ∧ s.toList.getLast? ≠ some '\\'
      ∧ (standard.read t).IsValid ∧ standard.registry.BuiltinOnly
      ∧ (standard.read (s ++ t)).placeholders.map Placeholder.span = [(5, 8), (9, 24)]
      ∧ (standard.read (s ++ t)).mistakes = []
      ∧ (standard.fill (s ++ t) values).text = "n = \x7b'\\'\x7d\x7bN:NumberInput\x7d\x7d"
      ∧ (standard.fill (s ++ t) values).errors
        = ["Parameter \"N\" expects a number, got: many"] := by
  intro s t values
  have hvalid : (standard.read s).IsValid := by decide +kernel
  have hend : s.toList.getLast? ≠ some '\\' := by decide
  have ht : (standard.read t).IsValid := by decide +kernel
  have hregistry := builtinOnly_standard
  obtain ⟨hplaceholders, hmistakes, hfill⟩ := read_fill_append standard s t hvalid hend
  obtain ⟨htext, herrors⟩ := hfill ht hregistry values
  exact ⟨hvalid, hend, ht, hregistry,
    (congrArg (List.map Placeholder.span) hplaceholders).trans (by decide +kernel),
    hmistakes.trans (by decide +kernel), htext.trans (by decide +kernel),
    herrors.trans (by decide +kernel)⟩

end Engine

end QueryStencil
