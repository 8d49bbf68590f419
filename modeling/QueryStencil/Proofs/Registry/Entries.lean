/-
# `QueryStencil.Proofs.Registry.Entries` — what gets into a registry, and where

A candidate gets in if it is a kind that goes by a name with more than blanks
in it (`Candidate.usable_iff`), and then the entry is the kind itself, since
its name comes from the kind (`Entry.eq_of_kind_eq`).

Names are distinct, so what is found under a name is the one entry of that
name (`find?_eq_some_iff`).  A put entry comes in the place of the one of its
name, and all others stay (`mem_put`, `find?_put_of_ne`, `names_put`).
-/
import Mathlib.Data.List.Nodup
import QueryStencil.Proofs.Text.Trim
import QueryStencil.Registry.Basic

namespace QueryStencil

/-! ## Kinds that a registry takes -/

/-- The kind goes by the name, and there is more than blanks in the name. -/
def Kind.GoesBy (k : Kind) (name : String) : Prop :=
  k.name = .text name ∧ Text.trim name.toList ≠ []

/-- A candidate that a registry takes: a kind that goes by some name. -/
def Candidate.Usable (c : Candidate) : Prop := ∃ k name, c = .kind k ∧ k.GoesBy name

/-- The candidate is a kind that goes by the name. -/
def Candidate.GoesBy (c : Candidate) (name : String) : Prop := ∃ k, c = .kind k ∧ k.GoesBy name

theorem Candidate.usable_iff_exists_goesBy {c : Candidate} : c.Usable ↔ ∃ name, c.GoesBy name :=
  exists_comm

theorem Kind.GoesBy.name_eq {k : Kind} {name name' : String} (h : k.GoesBy name)
    (h' : k.GoesBy name') : name = name' :=
  Value.text.inj (h.1.symm.trans h'.1)

theorem Entry.goesBy (x : Entry) : x.kind.GoesBy x.name :=
  ⟨x.kind_name, fun h => x.visible (Text.trim_eq_nil_iff.mp h)⟩

theorem Kind.GoesBy.exists_entry {k : Kind} {name : String} (h : k.GoesBy name) :
    ∃ x : Entry, x.kind = k ∧ x.name = name :=
  ⟨⟨name, k, h.1, fun hblank => h.2 (Text.trim_eq_nil_iff.mpr hblank)⟩, rfl, rfl⟩

/-- An entry is its kind, since the name comes from the kind. -/
theorem Entry.eq_of_kind_eq {x y : Entry} (h : x.kind = y.kind) : x = y := by
  have hname : x.name = y.name := x.goesBy.name_eq (h ▸ y.goesBy)
  cases x
  cases y
  cases h
  cases hname
  rfl

theorem Kind.entry?_eq_some_iff {k : Kind} {x : Entry} : k.entry? = some x ↔ x.kind = k := by
  rw [Kind.entry?]
  split
  · rename_i name hname
    split
    · rename_i hblank
      refine iff_of_false (Option.some_ne_none x).symm ?_
      rintro rfl
      have hsame : name = x.name := Value.text.inj (hname.symm.trans x.kind_name)
      exact x.visible (hsame ▸ hblank)
    · constructor
      · intro h
        exact congrArg Entry.kind (Option.some.inj h).symm
      · intro h
        exact congrArg some (Entry.eq_of_kind_eq h.symm)
  · rename_i hname
    refine iff_of_false (Option.some_ne_none x).symm ?_
    rintro rfl
    exact hname x.name x.kind_name

namespace Candidate

variable {c : Candidate}

theorem entry_eq_ok_iff {x : Entry} : c.entry = .ok x ↔ c = .kind x.kind := by
  cases c with
  | value v => simp [entry]
  | kind k =>
      rw [kind.injEq, eq_comm (a := k), ← Kind.entry?_eq_some_iff, entry]
      split
      · rename_i y hy
        rw [Except.ok.injEq, hy, Option.some.injEq]
      · rename_i hnone
        simp [hnone]

/-- The kind of an entry makes that entry again. -/
theorem entry_kind (x : Entry) : entry (.kind x.kind) = .ok x := entry_eq_ok_iff.mpr rfl

theorem usable_iff : c.Usable ↔ ∃ x, c.entry = .ok x := by
  constructor
  · rintro ⟨k, name, rfl, hname⟩
    obtain ⟨x, rfl, -⟩ := hname.exists_entry
    exact ⟨x, entry_kind x⟩
  · rintro ⟨x, hx⟩
    exact ⟨x.kind, x.name, entry_eq_ok_iff.mp hx, x.goesBy⟩

/-- What makes an entry goes by the name of the entry and by no other. -/
theorem goesBy_iff {x : Entry} (h : c.entry = .ok x) {name : String} :
    c.GoesBy name ↔ name = x.name := by
  obtain rfl := entry_eq_ok_iff.mp h
  constructor
  · rintro ⟨k, hk, hgoes⟩
    obtain rfl := kind.inj hk
    exact hgoes.name_eq x.goesBy
  · rintro rfl
    exact ⟨x.kind, rfl, x.goesBy⟩

theorem entry_of_not_usable (h : ¬ c.Usable) : c.entry = .error (.unusableName c) := by
  cases c with
  | value v => rfl
  | kind k =>
      cases hk : k.entry? with
      | none => rw [entry, hk]
      | some x => exact absurd (usable_iff.mpr ⟨x, by rw [entry, hk]⟩) h

instance (c : Candidate) : Decidable c.Usable :=
  match hentry : c.entry with
  | .ok x => .isTrue (usable_iff.mpr ⟨x, hentry⟩)
  | .error _ => .isFalse fun h => by
      obtain ⟨x, hx⟩ := usable_iff.mp h
      exact nomatch hx.symm.trans hentry

instance (c : Candidate) (name : String) : Decidable (c.GoesBy name) :=
  match hentry : c.entry with
  | .ok x => decidable_of_iff (name = x.name) (goesBy_iff hentry).symm
  | .error _ => .isFalse fun h => by
      obtain ⟨x, hx⟩ := usable_iff.mp (usable_iff_exists_goesBy.mpr ⟨name, h⟩)
      exact nomatch hx.symm.trans hentry

end Candidate

namespace Registry

/-! ## One registration -/

theorem register_of_entry (r : Registry) {c : Candidate} {x : Entry} (h : c.entry = .ok x) :
    r.register c = .ok (r.put x) := by
  rw [register, h]
  rfl

theorem register_of_not_usable (r : Registry) {c : Candidate} (h : ¬ c.Usable) :
    r.register c = .error (.unusableName c) := by
  rw [register, c.entry_of_not_usable h]
  rfl

/-! ## Entries of a registry -/

theorem entry_eq_of_name_eq (r : Registry) {x y : Entry} (hx : x ∈ r.entries)
    (hy : y ∈ r.entries) (h : x.name = y.name) : x = y :=
  List.inj_on_of_nodup_map r.distinct hx hy h

theorem find?_eq_some_iff {r : Registry} {name : String} {k : Kind} :
    r.find? name = some k ↔ ∃ x ∈ r.entries, x.name = name ∧ x.kind = k := by
  rw [find?, Option.map_eq_some_iff]
  constructor
  · rintro ⟨x, hfound, rfl⟩
    exact ⟨x, List.mem_of_find?_eq_some hfound, by simpa using List.find?_some hfound, rfl⟩
  · rintro ⟨x, hx, rfl, rfl⟩
    cases hfound : r.entries.find? (·.name = x.name) with
    | none => exact absurd (List.find?_eq_none.mp hfound x hx) (by simp)
    | some y =>
        have hname : y.name = x.name := by simpa using List.find?_some hfound
        have hy := List.mem_of_find?_eq_some hfound
        exact ⟨y, rfl, congrArg Entry.kind (r.entry_eq_of_name_eq hy hx hname)⟩

theorem mem_entries_iff_find? {r : Registry} {x : Entry} :
    x ∈ r.entries ↔ r.find? x.name = some x.kind := by
  rw [find?_eq_some_iff]
  constructor
  · intro hx
    exact ⟨x, hx, rfl, rfl⟩
  · rintro ⟨y, hy, -, hkind⟩
    exact Entry.eq_of_kind_eq hkind ▸ hy

theorem mem_iff_exists_find? {r : Registry} {name : String} :
    name ∈ r ↔ ∃ k, r.find? name = some k := by
  constructor
  · intro h
    obtain ⟨x, hx, hname⟩ := List.mem_map.mp h
    exact ⟨x.kind, find?_eq_some_iff.mpr ⟨x, hx, hname, rfl⟩⟩
  · rintro ⟨k, hk⟩
    obtain ⟨x, hx, hname, -⟩ := find?_eq_some_iff.mp hk
    exact List.mem_map.mpr ⟨x, hx, hname⟩

theorem find?_eq_none {r : Registry} {name : String} (h : name ∉ r) : r.find? name = none :=
  Option.eq_none_iff_forall_ne_some.mpr fun k hk => h (mem_iff_exists_find?.mpr ⟨k, hk⟩)

/-- A put entry is there, and so are the others that have other names. -/
theorem mem_put {x y : Entry} {xs : List Entry} (h : (xs.map Entry.name).Nodup) :
    y ∈ x.put xs ↔ y = x ∨ (y ∈ xs ∧ y.name ≠ x.name) := by
  induction xs with
  | nil => simp [Entry.put]
  | cons z zs ih =>
      obtain ⟨hz, hzs⟩ := List.nodup_cons.mp h
      rw [Entry.put]
      split
      · rename_i hname
        rw [List.mem_cons, List.mem_cons]
        refine or_congr_right ?_
        constructor
        · intro hy
          refine ⟨.inr hy, ?_⟩
          intro hsame
          exact hz (List.mem_map.mpr ⟨y, hy, hsame.trans hname.symm⟩)
        · rintro ⟨rfl | hy, hne⟩
          · exact absurd hname hne
          · exact hy
      · rename_i hname
        rw [List.mem_cons, ih hzs, List.mem_cons]
        constructor
        · rintro (rfl | rfl | ⟨hy, hne⟩)
          · exact .inr ⟨.inl rfl, hname⟩
          · exact .inl rfl
          · exact .inr ⟨.inr hy, hne⟩
        · rintro (rfl | ⟨rfl | hy, hne⟩)
          · exact .inr (.inl rfl)
          · exact .inl rfl
          · exact .inr (.inr ⟨hy, hne⟩)

theorem find?_put_self (r : Registry) (x : Entry) : (r.put x).find? x.name = some x.kind :=
  find?_eq_some_iff.mpr ⟨x, (mem_put r.distinct).mpr (.inl rfl), rfl, rfl⟩

theorem find?_put_of_ne (r : Registry) {x : Entry} {name : String} (h : name ≠ x.name) :
    (r.put x).find? name = r.find? name := by
  refine Option.ext fun k => ?_
  rw [find?_eq_some_iff, find?_eq_some_iff]
  constructor
  · rintro ⟨y, hy, rfl, rfl⟩
    rcases (mem_put r.distinct).mp hy with rfl | ⟨hold, -⟩
    · exact absurd rfl h
    · exact ⟨y, hold, rfl, rfl⟩
  · rintro ⟨y, hy, rfl, rfl⟩
    exact ⟨y, (mem_put r.distinct).mpr (.inr ⟨hy, h⟩), rfl, rfl⟩

theorem names_put (r : Registry) (x : Entry) :
    (r.put x).names = if x.name ∈ r.names then r.names else r.names ++ [x.name] :=
  Entry.map_name_put x r.entries

/-- Known names stay where they are, and a new one comes behind them. -/
theorem names_isPrefix_put (r : Registry) (x : Entry) : r.names <+: (r.put x).names := by
  rw [names_put]
  split
  · exact List.prefix_refl _
  · exact List.prefix_append _ _

theorem names_subset_put (r : Registry) (x : Entry) : r.names ⊆ (r.put x).names :=
  (r.names_isPrefix_put x).subset

theorem mem_put_iff (r : Registry) (x : Entry) {name : String} :
    name ∈ r.put x ↔ name ∈ r ∨ name = x.name := by
  show name ∈ (r.put x).names ↔ name ∈ r.names ∨ name = x.name
  rw [names_put]
  split
  · rename_i hknown
    refine (or_iff_left_of_imp ?_).symm
    rintro rfl
    exact hknown
  · rw [List.mem_append, List.mem_singleton]

theorem names_erase (r : Registry) (name : String) :
    (r.erase name).names = r.names.filter (· ≠ name) := by
  rw [names, erase, names, List.filter_map]
  rfl

end Registry

end QueryStencil
