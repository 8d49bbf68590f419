/-
# `QueryStencil.Proofs.Registry.Preparation` — a registry in use, prepared for one more engine

An engine can be set up with a registry that others use already.  Candidates are
registered in it up to the first that is unusable, and only if there is none does
it matter whether the fallback is known.  Nothing is taken back on an error, so the
others see what was registered until then.

`Extends` says what candidates make of a registry when none of them is refused:
the last kind of a name is found under it, new names come behind the known ones,
and a reset goes back to where it always went.  One registration keeps that
(`Extends.concat`), and so it holds for any number of them
(`exists_extends`).  An error leaves the registry extended by the candidates
before it, and no others (`prepare_residue`).
-/
import QueryStencil.Engine.Basic
import QueryStencil.Proofs.Registry.Run

namespace QueryStencil.Registry

open QueryStencil.Registry.Action

variable {r r' : Registry} {c : Candidate} {cs : List Candidate} {x : Entry} {name fallback : String}
  {k : Kind}

/-! ## Registrations one after the other -/

/-- The second registry is the first one with the candidates registered in it, none of them refused. -/
structure Extends (r : Registry) (cs : List Candidate) (r' : Registry) : Prop where
  /-- Each candidate is registered in what those before it left. -/
  registered : cs.foldlM register r = .ok r'
  /-- The last candidate that goes by a name is found, and without one what was found before. -/
  find?_eq_some_iff : ∀ name k, r'.find? name = some k
    ↔ (∃ i, Stands (cs.map .register) name k i)
      ∨ ((∀ c ∈ cs, ¬ c.GoesBy name) ∧ r.find? name = some k)
  /-- The names are the known ones and those that candidates go by. -/
  mem_iff : ∀ name, name ∈ r' ↔ name ∈ r ∨ ∃ c ∈ cs, c.GoesBy name
  /-- Known names stay where they are, and new ones come behind them. -/
  known_first : r.names <+: r'.names
  /-- A reset goes back to the same kinds. -/
  initial_eq : r'.initial = r.initial

theorem extends_nil (r : Registry) : Extends r [] r where
  registered := rfl
  find?_eq_some_iff name k := by
    refine ⟨fun h => .inr ⟨fun c hc => absurd hc List.not_mem_nil, h⟩, ?_⟩
    rintro (⟨i, hstands⟩ | ⟨-, h⟩)
    · exact absurd hstands.brings.lt (Nat.not_lt_zero i)
    · exact h
  mem_iff name := by simp
  known_first := List.prefix_refl _
  initial_eq := rfl

namespace Extends

/-- One more registration: the new kind is found under its name, and no other name is concerned. -/
theorem find?_concat (h : Extends r cs r') (hx : c.entry = .ok x) (name : String) (k : Kind) :
    (r'.put x).find? name = some k
      ↔ (∃ i, Stands ((cs ++ [c]).map .register) name k i)
        ∨ ((∀ b ∈ cs ++ [c], ¬ b.GoesBy name) ∧ r.find? name = some k) := by
  rw [List.map_append, List.map_singleton]
  simp only [stands_concat, brings_register_iff hx, concerns_register_iff,
    Candidate.goesBy_iff hx, List.forall_mem_append, List.forall_mem_singleton]
  by_cases hname : name = x.name
  · subst hname
    simp [find?_put_self]
  · simp [find?_put_of_ne r' hname, hname, h.find?_eq_some_iff]

theorem concat (h : Extends r cs r') (hx : c.entry = .ok x) :
    Extends r (cs ++ [c]) (r'.put x) where
  registered := by
    rw [List.foldlM_append, h.registered]
    exact (bind_pure _).trans (register_of_entry r' hx)
  find?_eq_some_iff := h.find?_concat hx
  mem_iff name := by
    rw [mem_put_iff, h.mem_iff, ← Candidate.goesBy_iff hx, or_assoc]
    simp only [List.mem_append, List.mem_singleton, or_and_right, exists_or, exists_eq_left]
  known_first := h.known_first.trans (r'.names_isPrefix_put x)
  initial_eq := h.initial_eq

/-- An entry under a name that no candidate goes by stays as it was. -/
theorem mem_entries_iff (h : Extends r cs r') (hother : ∀ c ∈ cs, ¬ c.GoesBy x.name) :
    x ∈ r'.entries ↔ x ∈ r.entries := by
  have hnew : ¬ ∃ i, Stands (cs.map .register) x.name x.kind i := by
    rintro ⟨i, hstands⟩
    obtain ⟨a, ha, hbrings⟩ := hstands.brings
    obtain ⟨c, hc, rfl⟩ := List.mem_map.mp (List.mem_of_getElem? ha)
    exact hother c hc (concerns_register_iff.mp (.inl ⟨x.kind, hbrings⟩))
  rw [mem_entries_iff_find?, mem_entries_iff_find?, h.find?_eq_some_iff, or_iff_right hnew,
    and_iff_right hother]

theorem reset_run (h : Extends r cs r') (actions : List Action) :
    (r'.run actions).reset = r.reset := by
  rw [reset, reset, initial_run, h.initial_eq]

end Extends

/-- Usable candidates can be registered, as many as there are. -/
theorem exists_extends (r : Registry) (h : ∀ c ∈ cs, c.Usable) : ∃ r', Extends r cs r' := by
  -- the last candidate is registered in what those before it made of the registry
  induction cs using List.reverseRecOn with
  | nil => exact ⟨r, extends_nil r⟩
  | append_singleton cs c ih =>
      obtain ⟨hcs, hc⟩ := List.forall_mem_append.mp h
      obtain ⟨r', hr'⟩ := ih hcs
      obtain ⟨x, hx⟩ := Candidate.usable_iff.mp (hc c (List.mem_singleton_self c))
      exact ⟨r'.put x, hr'.concat hx⟩

/-- Behind candidates that are not refused it goes on with what they made of the registry. -/
theorem registerAll_append (h : cs.foldlM register r = .ok r') (more : List Candidate) :
    r.registerAll (cs ++ more) = r'.registerAll more := by
  induction cs generalizing r with
  | nil =>
      obtain rfl := Except.ok.inj h
      rfl
  | cons c cs ih =>
      rw [List.foldlM_cons] at h
      rw [List.cons_append, registerAll]
      cases hc : r.register c with
      | error e => rw [hc] at h; cases h
      | ok next => rw [hc] at h; exact ih h

/-! ## Preparing a registry -/

/-- If all candidates are usable, the registry has them all, and only the fallback can be wrong. -/
theorem prepare_of_usable (r : Registry) (fallback : String) (h : ∀ c ∈ cs, c.Usable) :
    ∃ r', Extends r cs r'
      ∧ r.prepare cs fallback
        = (r', if fallback ∈ r' then none else some (.unknownFallback fallback)) := by
  obtain ⟨r', hr'⟩ := exists_extends r h
  have hall : r.registerAll cs = (r', none) := by
    rw [← List.append_nil cs, registerAll_append hr'.registered]
    rfl
  exact ⟨r', hr', by rw [prepare, hall]⟩

/-- The first candidate that is unusable ends it, and those before it stay registered. -/
theorem prepare_of_not_usable (r : Registry) (fallback : String) {i : Nat} (hi : cs[i]? = some c)
    (hbefore : ∀ b ∈ cs.take i, b.Usable) (hc : ¬ c.Usable) :
    ∃ r', Extends r (cs.take i) r'
      ∧ r.prepare cs fallback = (r', some (.unusableName c)) := by
  obtain ⟨r', hr'⟩ := exists_extends r hbefore
  have hsplit : cs = cs.take i ++ c :: cs.drop (i + 1) := by
    obtain ⟨hlt, rfl⟩ := List.getElem?_eq_some_iff.mp hi
    rw [List.getElem_cons_drop, List.take_append_drop]
  have hall : r.registerAll cs = (r', some (.unusableName c)) := by
    rw [hsplit, registerAll_append hr'.registered, registerAll, register_of_not_usable r' hc]
  exact ⟨r', hr', by rw [prepare, hall]⟩

theorem exists_first_not_usable (h : ¬ ∀ c ∈ cs, c.Usable) :
    ∃ (i : Nat) (c : Candidate), cs[i]? = some c ∧ (∀ b ∈ cs.take i, b.Usable) ∧ ¬ c.Usable := by
  induction cs with
  | nil => exact absurd (fun c hc => absurd hc List.not_mem_nil) h
  | cons b cs ih =>
      by_cases hb : b.Usable
      · obtain ⟨i, c, hi, hbefore, hc⟩ := ih fun hcs => h (List.forall_mem_cons.mpr ⟨hb, hcs⟩)
        exact ⟨i + 1, c, hi, List.forall_mem_cons.mpr ⟨hb, hbefore⟩, hc⟩
      · exact ⟨0, b, rfl, fun c hc => absurd hc List.not_mem_nil, hb⟩

/-- Usable candidates at the start end at one that is unusable, or before it. -/
theorem le_of_usable_take {i j : Nat} (h : ∀ b ∈ cs.take i, b.Usable) (hj : cs[j]? = some c)
    (hc : ¬ c.Usable) : i ≤ j := by
  refine Nat.le_of_not_lt fun hlt => ?_
  exact hc (h c (List.mem_of_getElem? ((List.getElem?_take_of_lt hlt).trans hj)))

/-- What is left of a registry, and the error if there is one, when candidates are registered in
it for an engine that falls back to a name. -/
structure Residue (r : Registry) (cs : List Candidate) (fallback : String) (r' : Registry)
    (err : Option RegistryError) : Prop where
  /-- It fails exactly if a candidate is unusable, or if nothing goes by the fallback. -/
  fails_iff : (∃ e, err = some e)
    ↔ (∃ c ∈ cs, ¬ c.Usable)
      ∨ ((∀ c ∈ cs, c.Usable) ∧ fallback ∉ r ∧ ∀ c ∈ cs, ¬ c.GoesBy fallback)
  /-- The error is that of the first candidate that is unusable, and those before it stay. -/
  unusable : ∀ (i : Nat) c, cs[i]? = some c → (∀ b ∈ cs.take i, b.Usable) → ¬ c.Usable →
    err = some (.unusableName c) ∧ r'.register c = .error (.unusableName c)
      ∧ Extends r (cs.take i) r'
  /-- If only the fallback is wrong, all candidates stay. -/
  unknown : (∀ c ∈ cs, c.Usable) → fallback ∉ r → (∀ c ∈ cs, ¬ c.GoesBy fallback) →
    err = some (.unknownFallback fallback) ∧ Extends r cs r'
  /-- If nothing is wrong, they are all there, and so is the fallback. -/
  ready : err = none → fallback ∈ r' ∧ Extends r cs r'
  /-- However it ends, entries under other names are the same, -/
  others : ∀ x : Entry, (∀ c ∈ cs, ¬ c.GoesBy x.name) → (x ∈ r'.entries ↔ x ∈ r.entries)
  /-- known names stay where they are, -/
  known_first : r.names <+: r'.names
  /-- and a reset goes back to where it always went, whatever is done before it. -/
  reset_run : ∀ actions, (r'.run actions).reset = r.reset

theorem residue_of_usable (h : ∀ c ∈ cs, c.Usable) (hr' : Extends r cs r') :
    Residue r cs fallback r'
      (if fallback ∈ r' then none else some (.unknownFallback fallback)) := by
  have hnone : ¬ ∃ c ∈ cs, ¬ c.Usable := fun ⟨c, hc, hbad⟩ => hbad (h c hc)
  have hlost : fallback ∉ r' ↔ fallback ∉ r ∧ ∀ c ∈ cs, ¬ c.GoesBy fallback := by
    simp [hr'.mem_iff]
  exact {
    fails_iff := by
      rw [or_iff_right hnone, and_iff_right h, ← hlost]
      split
      · rename_i hknown
        exact iff_of_false (fun ⟨e, he⟩ => nomatch he) (fun hunknown => hunknown hknown)
      · rename_i hunknown
        exact iff_of_true ⟨_, rfl⟩ hunknown
    unusable := fun i c hi _ hc => absurd (h c (List.mem_of_getElem? hi)) hc
    unknown := by
      intro _ hr hcs
      rw [if_neg (hlost.mpr ⟨hr, hcs⟩)]
      exact ⟨rfl, hr'⟩
    ready := by
      intro herr
      split at herr
      · rename_i hknown
        exact ⟨hknown, hr'⟩
      · exact nomatch herr
    others := fun x hx => hr'.mem_entries_iff hx
    known_first := hr'.known_first
    reset_run := hr'.reset_run }

theorem residue_of_not_usable {i : Nat} (hi : cs[i]? = some c)
    (hbefore : ∀ b ∈ cs.take i, b.Usable) (hc : ¬ c.Usable) (hr' : Extends r (cs.take i) r') :
    Residue r cs fallback r' (some (.unusableName c)) := by
  have hmem : c ∈ cs := List.mem_of_getElem? hi
  have hnot : ¬ ∀ c ∈ cs, c.Usable := fun h => hc (h c hmem)
  exact {
    fails_iff := iff_of_true ⟨_, rfl⟩ (.inl ⟨c, hmem, hc⟩)
    unusable := by
      intro j d hj hbefore' hd
      obtain rfl : i = j := Nat.le_antisymm (le_of_usable_take hbefore hj hd)
        (le_of_usable_take hbefore' hi hc)
      obtain rfl := Option.some.inj (hi.symm.trans hj)
      exact ⟨rfl, register_of_not_usable r' hc, hr'⟩
    unknown := fun h => absurd h hnot
    ready := fun h => nomatch h
    others := fun x hx => hr'.mem_entries_iff fun b hb => hx b (List.mem_of_mem_take hb)
    known_first := hr'.known_first
    reset_run := hr'.reset_run }

/-- Preparing a registry for an engine: when it fails, with which error, and what stays. -/
theorem prepare_residue (r : Registry) (cs : List Candidate) (fallback : String) :
    Residue r cs fallback (r.prepare cs fallback).1 (r.prepare cs fallback).2 := by
  by_cases h : ∀ c ∈ cs, c.Usable
  · obtain ⟨r', hr', hprepare⟩ := prepare_of_usable r fallback h
    rw [hprepare]
    exact residue_of_usable h hr'
  · obtain ⟨i, c, hi, hbefore, hc⟩ := exists_first_not_usable h
    obtain ⟨r', hr', hprepare⟩ := prepare_of_not_usable r fallback hi hbefore hc
    rw [hprepare]
    exact residue_of_not_usable hi hbefore hc hr'

/-- A built-in kind that is taken over in its place, a name twice, and a kind without a name
before the last one; the fallback comes too late. -/
theorem prepare_residue_overridden :
    let choice := Kind.choice (.text "StringInput") "Choice" ["a", "b"]
    let labels := { Kind.tags with title := "Labels" }
    let nameless := { Kind.tags with name := .null }
    let r := ofEntries ([Kind.freeText, .number].filterMap Kind.entry?)
    let cs : List Candidate :=
      [.kind .tags, .kind choice, .kind labels, .kind nameless, .kind .filingForm]
    let r' := (r.prepare cs "FormTypes").1
    (r.prepare cs "FormTypes").2 = some (.unusableName (.kind nameless))
      ∧ (cs.take 3).foldlM register r = .ok r'
      ∧ r'.names = ["StringInput", "NumberInput", "Tags"]
      ∧ r'.find? "StringInput" = some choice ∧ r'.find? "Tags" = some labels
      ∧ r'.reset = r.reset ∧ r'.reset.find? "StringInput" = some .freeText
      ∧ (r.prepare (cs.take 3) "FormTypes").2 = some (.unknownFallback "FormTypes") := by
  intro choice labels nameless r cs r'
  have hresidue : Residue r cs "FormTypes" r' (r.prepare cs "FormTypes").2 :=
    prepare_residue r cs "FormTypes"
  have hbefore : ∀ b ∈ cs.take 3, b.Usable := by decide +kernel
  obtain ⟨herr, -, hextends⟩ := hresidue.unusable 3 _ rfl hbefore (by decide +kernel)
  have hreset : r'.reset = r.reset := hresidue.reset_run []
  have hunknown := (prepare_residue r (cs.take 3) "FormTypes").unknown hbefore
    (by decide +kernel) (by decide +kernel)
  refine ⟨herr, hextends.registered, by decide +kernel, rfl, rfl, hreset, ?_, hunknown.1⟩
  rw [hreset]
  rfl

end QueryStencil.Registry
