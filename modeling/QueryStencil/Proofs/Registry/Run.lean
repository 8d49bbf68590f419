/-
# `QueryStencil.Proofs.Registry.Run` — a registry, told by what was done to it

A registry is built from candidates, and a reset goes back to those.  So the
history that counts is the registrations of the start and what followed the
last reset (`sinceReset`), and by that history the registry holds what stands,
in the order in which the names entered.  The invariant is `Describes`; one
action keeps it (`Describes.perform`), and `run_toldBy` is what follows for
whole runs, whichever of their registrations fail.
-/
import Mathlib.Data.List.DropRight
import QueryStencil.Proofs.Attempts
import QueryStencil.Proofs.Registry.History

namespace QueryStencil.Registry

open QueryStencil.Registry.Action

variable {history : List Action} {a : Action} {name : String} {k : Kind}

/-! ## One action -/

/-- The registry holds what the history says, in the order that the history says. -/
structure Describes (history : List Action) (r : Registry) : Prop where
  mem_iff : ∀ x, x ∈ r.entries ↔ ∃ i, Stands history x.name x.kind i
  enters : ∀ name ∈ r.names, ∃ i, Enters history name i
  ordered : r.names.Pairwise fun name name' =>
    ∃ i j, Enters history name i ∧ Enters history name' j ∧ i < j

theorem describes_nil (initial : List Entry) : Describes [] (bare initial) := by
  refine ⟨?_, ?_, List.Pairwise.nil⟩
  · intro x
    refine iff_of_false List.not_mem_nil ?_
    rintro ⟨i, hstands⟩
    exact absurd hstands.brings.lt (Nat.not_lt_zero i)
  · intro name hname
    exact absurd hname List.not_mem_nil

namespace Describes

variable {r : Registry}

theorem find?_eq_some_iff (h : Describes history r) :
    r.find? name = some k ↔ ∃ i, Stands history name k i := by
  rw [Registry.find?_eq_some_iff]
  constructor
  · rintro ⟨x, hx, rfl, rfl⟩
    exact (h.mem_iff x).mp hx
  · rintro ⟨i, hstands⟩
    obtain ⟨b, -, -, hgoes⟩ := hstands.brings
    obtain ⟨x, rfl, rfl⟩ := hgoes.exists_entry
    exact ⟨x, (h.mem_iff x).mpr ⟨i, hstands⟩, rfl, rfl⟩

theorem mem_names_iff (h : Describes history r) :
    name ∈ r ↔ ∃ k i, Stands history name k i := by
  rw [mem_iff_exists_find?]
  exact exists_congr fun k => h.find?_eq_some_iff

/-- The order of names that stay is the same after an action that erases none of them. -/
theorem ordered_concat (h : Describes history r) {names : List String}
    (hsub : names.Sublist r.names) (ha : ∀ name ∈ names, a ≠ .erase name) :
    names.Pairwise fun name name' =>
      ∃ i j, Enters (history ++ [a]) name i ∧ Enters (history ++ [a]) name' j ∧ i < j := by
  refine (h.ordered.sublist hsub).imp_of_mem ?_
  intro name name' hname hname' hpair
  obtain ⟨i, j, hi, hj, hlt⟩ := hpair
  exact ⟨i, j, hi.concat (ha name hname), hj.concat (ha name' hname'), hlt⟩

theorem idle (h : Describes history r) (ha : ∀ name, ¬ a.Concerns name) :
    Describes (history ++ [a]) r := by
  have hstands : ∀ name k i, Stands (history ++ [a]) name k i ↔ Stands history name k i := by
    intro name k i
    rw [stands_concat]
    constructor
    · rintro (⟨-, hbrings⟩ | ⟨hold, -⟩)
      · exact absurd (.inl ⟨k, hbrings⟩) (ha name)
      · exact hold
    · intro hold
      exact .inr ⟨hold, ha name⟩
  have herase : ∀ name, a ≠ .erase name := fun name he => ha name (.inr he)
  refine ⟨?_, ?_, h.ordered_concat (List.Sublist.refl _) fun name _ => herase name⟩
  · intro x
    simp only [h.mem_iff x, hstands]
  · intro name hname
    obtain ⟨i, hi⟩ := h.enters name hname
    exact ⟨i, hi.concat (herase name)⟩

theorem put (h : Describes history r) (x : Entry) :
    Describes (history ++ [.register (.kind x.kind)]) (r.put x) := by
  have hx := Candidate.entry_kind x
  have hbrings : Brings x.name x.kind (.register (.kind x.kind)) :=
    (brings_register_iff hx).mpr ⟨rfl, rfl⟩
  have hother : ∀ {name}, name ≠ x.name → ¬ Concerns name (.register (.kind x.kind)) :=
    fun hne hconcerns => hne ((Candidate.goesBy_iff hx).mp (concerns_register_iff.mp hconcerns))
  have herase : ∀ name, Action.register (.kind x.kind) ≠ .erase name :=
    fun name => Action.noConfusion
  refine ⟨?_, ?_, ?_⟩
  · intro y
    rw [Registry.put, mem_put r.distinct]
    constructor
    · rintro (rfl | ⟨hy, hne⟩)
      · exact ⟨_, stands_concat.mpr (.inl ⟨rfl, hbrings⟩)⟩
      · obtain ⟨i, hi⟩ := (h.mem_iff y).mp hy
        exact ⟨i, stands_concat.mpr (.inr ⟨hi, hother hne⟩)⟩
    · rintro ⟨i, hi⟩
      rcases stands_concat.mp hi with ⟨-, hnew⟩ | ⟨hold, hnot⟩
      · exact .inl (Entry.eq_of_kind_eq ((brings_register_iff hx).mp hnew).2.symm)
      · refine .inr ⟨(h.mem_iff y).mpr ⟨i, hold⟩, ?_⟩
        intro hname
        exact hnot (.inl ⟨x.kind, hname ▸ hbrings⟩)
  · intro name hname
    rw [names_put] at hname
    split at hname
    · obtain ⟨i, hi⟩ := h.enters name hname
      exact ⟨i, hi.concat (herase name)⟩
    · rename_i hnew
      rcases List.mem_append.mp hname with hold | hlast
      · obtain ⟨i, hi⟩ := h.enters name hold
        exact ⟨i, hi.concat (herase name)⟩
      · obtain rfl := List.mem_singleton.mp hlast
        refine ⟨history.length, enters_concat_length hbrings fun k' i hstands => ?_⟩
        exact hnew (h.mem_names_iff.mpr ⟨k', i, hstands⟩)
  · have hold := h.ordered_concat (a := .register (.kind x.kind)) (List.Sublist.refl _)
      fun name _ => herase name
    rw [names_put]
    split
    · exact hold
    · rename_i hnew
      refine List.pairwise_append.mpr ⟨hold, List.pairwise_singleton _ _, ?_⟩
      intro name hname name' hlast
      obtain rfl := List.mem_singleton.mp hlast
      obtain ⟨i, hi⟩ := h.enters name hname
      obtain ⟨k, hk⟩ := hi.brings
      have henters := enters_concat_length hbrings fun k' i hstands =>
        hnew (h.mem_names_iff.mpr ⟨k', i, hstands⟩)
      exact ⟨i, history.length, hi.concat (herase name), henters, hk.lt⟩

theorem erase (h : Describes history r) (name : String) :
    Describes (history ++ [.erase name]) (r.erase name) := by
  have hbrings : ∀ {name' k}, ¬ Brings name' k (.erase name) :=
    fun hk => Action.noConfusion hk.1
  have hother : ∀ {name'}, Concerns name' (.erase name) ↔ name' = name := by
    intro name'
    constructor
    · rintro (⟨k, hk⟩ | herase)
      · exact absurd hk hbrings
      · exact (Action.erase.inj herase).symm
    · rintro rfl
      exact .inr rfl
  have hsub : (r.erase name).names.Sublist r.names := by
    rw [names_erase]
    exact List.filter_sublist
  have herase : ∀ name' ∈ (r.erase name).names, Action.erase name ≠ .erase name' := by
    intro name' hname' he
    rw [names_erase, List.mem_filter] at hname'
    exact absurd (Action.erase.inj he).symm (by simpa using hname'.2)
  refine ⟨?_, ?_, h.ordered_concat hsub herase⟩
  · intro x
    rw [Registry.erase, List.mem_filter, h.mem_iff x]
    simp only [stands_concat, hbrings, and_false, false_or, hother, decide_eq_true_eq,
      exists_and_right]
  · intro name' hname'
    obtain ⟨i, hi⟩ := h.enters name' (hsub.subset hname')
    exact ⟨i, hi.concat (herase name' hname')⟩

/-- One action keeps a description, unless it is a reset. -/
theorem perform (h : Describes history r) (ha : a.isReset = false) :
    Describes (history ++ [a]) (r.perform a).1 := by
  cases a with
  | register c =>
      by_cases hc : c.Usable
      · obtain ⟨x, hx⟩ := Candidate.usable_iff.mp hc
        rw [r.perform_register_of_ok hx, Candidate.entry_eq_ok_iff.mp hx]
        exact h.put x
      · rw [r.perform_register_of_not_usable hc]
        refine h.idle fun name hconcerns => ?_
        have hgoes := concerns_register_iff.mp hconcerns
        exact hc (Candidate.usable_iff_exists_goesBy.mpr ⟨name, hgoes⟩)
  | erase name => exact h.erase name
  | reset => exact absurd ha Bool.noConfusion

end Describes

/-! ## Whole runs -/

theorem describes_run {history : List Action} (h : ∀ a ∈ history, a.isReset = false)
    (initial : List Entry) : Describes history ((bare initial).run history) := by
  induction history using List.reverseRecOn with
  | nil => exact describes_nil initial
  | append_singleton history a ih =>
      have hbefore : ∀ b ∈ history, b.isReset = false :=
        fun b hb => h b (List.mem_append_left _ hb)
      rw [run_append]
      exact (ih hbefore).perform (h a (List.mem_append_right _ (List.mem_singleton_self a)))

/-- What was done after the last reset. -/
def sinceReset (actions : List Action) : List Action := actions.rtakeWhile fun a => !a.isReset

/-- A candidate that makes an entry again. -/
def candidates (xs : List Entry) : List Candidate := xs.map fun x => .kind x.kind

theorem initial_foldl_put (xs : List Entry) (r : Registry) :
    (xs.foldl put r).initial = r.initial := by
  induction xs generalizing r with
  | nil => rfl
  | cons x xs ih => exact ih _

theorem initial_ofEntries (xs : List Entry) : (ofEntries xs).initial = xs :=
  initial_foldl_put xs (bare xs)

theorem initial_perform (r : Registry) (a : Action) : (r.perform a).1.initial = r.initial := by
  cases a with
  | register c =>
      by_cases hc : c.Usable
      · obtain ⟨x, hx⟩ := Candidate.usable_iff.mp hc
        rw [r.perform_register_of_ok hx]
        rfl
      · rw [r.perform_register_of_not_usable hc]
  | erase name => rfl
  | reset => exact initial_ofEntries r.initial

theorem initial_run (actions : List Action) (r : Registry) :
    (r.run actions).initial = r.initial := by
  induction actions generalizing r with
  | nil => rfl
  | cons a actions ih => exact (ih _).trans (r.initial_perform a)

/-- Candidates that make entries are registered one after the other, and none fails. -/
theorem registerAll_candidates (xs : List Entry) (r : Registry) :
    r.registerAll (candidates xs) = (xs.foldl put r, none) := by
  induction xs generalizing r with
  | nil => rfl
  | cons x xs ih =>
      rw [candidates, List.map_cons, registerAll, r.register_of_entry (Candidate.entry_kind x)]
      exact ih (r.put x)

theorem run_register_candidates (xs : List Entry) (r : Registry) :
    r.run ((candidates xs).map .register) = xs.foldl put r := by
  induction xs generalizing r with
  | nil => rfl
  | cons x xs ih =>
      show (r.perform (.register (.kind x.kind))).1.run ((candidates xs).map .register) = _
      rw [r.perform_register_of_ok (Candidate.entry_kind x)]
      exact ih (r.put x)

theorem eq_candidates_of_mapM {cs : List Candidate} {xs : List Entry}
    (h : cs.mapM Candidate.entry = .ok xs) : cs = candidates xs := by
  have hentries := mapM_eq_ok_iff.mp h
  clear h
  induction hentries with
  | nil => rfl
  | cons hc _ ih =>
      rw [ih, Candidate.entry_eq_ok_iff.mp hc]
      rfl

section Built

variable {cs : List Candidate} {start : Registry} (h : ofCandidates cs = .ok start)

include h in
/-- A built registry is its initial entries put one after the other. -/
theorem start_eq : cs = candidates start.initial ∧ start = ofEntries start.initial := by
  rw [ofCandidates] at h
  cases hxs : cs.mapM Candidate.entry with
  | error err => rw [hxs] at h; exact nomatch h
  | ok xs =>
      rw [hxs] at h
      obtain rfl := Except.ok.inj h
      rw [initial_ofEntries]
      exact ⟨eq_candidates_of_mapM hxs, rfl⟩

include h in
theorem reset_run (actions : List Action) : (start.run actions).reset = start := by
  rw [reset, initial_run, ← (start_eq h).2]

include h in
theorem run_start : (bare start.initial).run (cs.map .register) = start := by
  obtain ⟨hcs, hstart⟩ := start_eq h
  rw [hcs, run_register_candidates]
  exact hstart.symm

include h in
/-- A run from the start is one from nothing, through the start and what followed the last reset. -/
theorem run_eq_run_sinceReset (actions : List Action) :
    start.run actions
      = (bare start.initial).run (cs.map .register ++ sinceReset actions) := by
  induction actions using List.reverseRecOn with
  | nil =>
      rw [sinceReset, List.rtakeWhile_nil, List.append_nil, run_start h]
      rfl
  | append_singleton actions a ih =>
      cases ha : a.isReset with
      | true =>
          have hnone : sinceReset (actions ++ [a]) = [] :=
            List.rtakeWhile_concat_neg _ _ _ (by simp [ha])
          rw [hnone, List.append_nil, run_start h, run_append]
          cases a with
          | reset => exact reset_run h actions
          | register c => exact absurd ha Bool.noConfusion
          | erase name => exact absurd ha Bool.noConfusion
      | false =>
          have hmore : sinceReset (actions ++ [a]) = sinceReset actions ++ [a] :=
            List.rtakeWhile_concat_pos _ _ _ (by simp [ha])
          rw [hmore, ← List.append_assoc, run_append, run_append, ih]

include h in
theorem describes_sinceReset (actions : List Action) :
    Describes (cs.map .register ++ sinceReset actions) (start.run actions) := by
  rw [run_eq_run_sinceReset h]
  refine describes_run ?_ start.initial
  intro a ha
  rcases List.mem_append.mp ha with hcs | hsince
  · obtain ⟨c, -, rfl⟩ := List.mem_map.mp hcs
    rfl
  · simpa using List.mem_rtakeWhile_imp hsince

end Built

/-! ## What a registry is after a run -/

/-- A registry that was built as `start`, told by what was done to it since it was last empty. -/
structure ToldBy (start : Registry) (history : List Action) (r : Registry) : Prop where
  /-- A name is known if its last registration came after it was last erased. -/
  mem_iff : ∀ name, name ∈ r ↔ ∃ k i, Stands history name k i
  /-- The kind is that of the last registration. -/
  find?_eq_some_iff : ∀ name k, r.find? name = some k ↔ ∃ i, Stands history name k i
  /-- Names come once, in the order in which they entered. -/
  distinct : r.names.Nodup
  ordered : r.names.Pairwise fun name name' =>
    ∃ i j, Enters history name i ∧ Enters history name' j ∧ i < j
  /-- Kinds are listed as their names are. -/
  listed : r.entries.map (fun x => x.kind.name) = r.names.map .text
  /-- What is found under a name goes by that name. -/
  goesBy : ∀ name k, r.find? name = some k → k.GoesBy name
  /-- A usable kind is found under its name afterwards.  A known name keeps its place. -/
  register_usable : ∀ k name, k.GoesBy name →
    ∃ r', r.perform (.register (.kind k)) = (r', none) ∧ r'.find? name = some k
      ∧ r'.names = if name ∈ r then r.names else r.names ++ [name]
  /-- Anything else is refused, and nothing changes. -/
  register_unusable : ∀ c, ¬ c.Usable → r.perform (.register c) = (r, some (.unusableName c))
  /-- A name that is erased and registered again goes to the end. -/
  register_erase : ∀ k name, k.GoesBy name →
    ((r.erase name).perform (.register (.kind k))).1.names
      = r.names.filter (· ≠ name) ++ [name]
  /-- A reset gives the registry as it was built, -/
  reset_eq : r.reset = start
  /-- and the registrations that it makes do not fail. -/
  registerAll_initial : (bare r.initial).registerAll (candidates r.initial) = (r.reset, none)
  /-- All ways to ask for a name agree. -/
  find?_isSome_iff : ∀ name, (r.find? name).isSome = true ↔ name ∈ r
  contains_iff : ∀ v, r.contains v = true ↔ ∃ name, v = .text name ∧ name ∈ r
  sortedNames_perm : r.sortedNames.Perm r.names

theorem map_kind_name_entries (r : Registry) :
    r.entries.map (fun x => x.kind.name) = r.names.map .text := by
  rw [names, List.map_map]
  exact List.map_congr_left fun x _ => x.kind_name

theorem goesBy_of_find? {r : Registry} (h : r.find? name = some k) : k.GoesBy name := by
  obtain ⟨x, -, rfl, rfl⟩ := find?_eq_some_iff.mp h
  exact x.goesBy

theorem perform_register_goesBy (r : Registry) (h : k.GoesBy name) :
    ∃ r', r.perform (.register (.kind k)) = (r', none) ∧ r'.find? name = some k
      ∧ r'.names = if name ∈ r then r.names else r.names ++ [name] := by
  obtain ⟨x, rfl, rfl⟩ := h.exists_entry
  exact ⟨r.put x, r.perform_register_of_ok (Candidate.entry_kind x), r.find?_put_self x,
    r.names_put x⟩

theorem names_register_erase (r : Registry) (h : k.GoesBy name) :
    ((r.erase name).perform (.register (.kind k))).1.names
      = r.names.filter (· ≠ name) ++ [name] := by
  obtain ⟨r', hperform, -, hnames⟩ := (r.erase name).perform_register_goesBy h
  have hgone : ¬ name ∈ r.erase name := by
    intro hname
    have hfilter : name ∈ r.names.filter (· ≠ name) := r.names_erase name ▸ hname
    simp at hfilter
  rw [hperform, hnames, if_neg hgone, names_erase]

theorem contains_eq_true_iff (r : Registry) (v : Value) :
    r.contains v = true ↔ ∃ name, v = .text name ∧ name ∈ r := by
  cases v with
  | text name => simp [contains]
  | _ => simp [contains]

/-- A registry after any run of registrations, failing or not, erasures and resets, by what was
done since the last reset. -/
theorem run_toldBy (cs : List Candidate) (start : Registry) (h : ofCandidates cs = .ok start)
    (actions : List Action) :
    ToldBy start (cs.map .register ++ sinceReset actions) (start.run actions) := by
  have hdescribes := describes_sinceReset h actions
  generalize hr : start.run actions = r at hdescribes
  exact {
    mem_iff := fun name => hdescribes.mem_names_iff
    find?_eq_some_iff := fun name k => hdescribes.find?_eq_some_iff
    distinct := r.distinct
    ordered := hdescribes.ordered
    listed := r.map_kind_name_entries
    goesBy := fun name k hk => goesBy_of_find? hk
    register_usable := fun k name hgoes => r.perform_register_goesBy hgoes
    register_unusable := fun c hc => r.perform_register_of_not_usable hc
    register_erase := fun k name hgoes => r.names_register_erase hgoes
    reset_eq := hr ▸ reset_run h actions
    registerAll_initial := registerAll_candidates r.initial (bare r.initial)
    find?_isSome_iff := fun name => by rw [mem_iff_exists_find?, Option.isSome_iff_exists]
    contains_iff := r.contains_eq_true_iff
    sortedNames_perm := List.mergeSort_perm _ _ }

/-- A name twice at the start, a run that is reset, and after it a registration that fails, an
erased name that comes back, and one that is taken over in its place. -/
theorem run_toldBy_after_reset :
    let choice := Kind.choice (.text "StringInput") "Choice" ["a", "b"]
    let count := { Kind.number with title := "Count" }
    let nameless := { Kind.tags with name := .null }
    let start := ofEntries ([Kind.freeText, .number, choice].filterMap Kind.entry?)
    let cs : List Candidate := [.kind .freeText, .kind .number, .kind choice]
    let actions : List Action :=
      [.register (.kind .tags), .erase "NumberInput", .reset,
        .register (.kind nameless), .erase "StringInput",
        .register (.kind .filingForm), .register (.kind .freeText), .register (.kind count)]
    let history := cs.map .register ++ sinceReset actions
    let r := start.run actions
    ofCandidates cs = .ok start
      ∧ r.names = ["NumberInput", "FormTypes", "StringInput"]
      ∧ (∃ i, Stands history "StringInput" .freeText i)
      ∧ (∃ i, Stands history "NumberInput" count i)
      ∧ (¬ ∃ k i, Stands history "Tags" k i)
      ∧ r.reset = start ∧ r.reset.names = ["StringInput", "NumberInput"] := by
  intro choice count nameless start cs actions history r
  have hstart : ofCandidates cs = .ok start := rfl
  have htold : ToldBy start history r := run_toldBy cs start hstart actions
  refine ⟨hstart, by decide +kernel, ?_, ?_, ?_, htold.reset_eq, ?_⟩
  · exact (htold.find?_eq_some_iff _ _).mp rfl
  · exact (htold.find?_eq_some_iff _ _).mp rfl
  · exact fun hstands => absurd ((htold.mem_iff "Tags").mpr hstands) (by decide +kernel)
  · rw [htold.reset_eq]
    decide +kernel

end QueryStencil.Registry
