/-
# `QueryStencil.Proofs.Registry.History` — what a history says about a name

What is done to a registry is a list of actions: kinds are registered, names
are erased, and now and then all is reset.  A history is such a list without
resets.  By it alone a kind stands under a name if the last registration of
the name that did not fail was of that kind and the name was not erased after
it (`Stands`), and a name has its place by the first registration after it was
last erased (`Enters`).

Both are told for a history with one more action: the action is the last word
on the names that it concerns (`stands_concat`), a name keeps its place until
it is erased (`Enters.concat`), and a name that is not there gets the last
place (`enters_concat_length`).
-/
import Mathlib.Data.List.Induction
import QueryStencil.Proofs.Registry.Entries

namespace QueryStencil.Registry

/-! ## Actions -/

/-- What can be done to a registry. -/
inductive Action where
  | register (c : Candidate)
  | erase (name : String)
  | reset

/-- The registry after an action, and the error if the action fails. -/
def perform (r : Registry) : Action → Registry × Option RegistryError
  | .register c => r.registerAll [c]
  | .erase name => (r.erase name, none)
  | .reset => (r.reset, none)

/-- The registry after actions one after the other, whichever of them fail. -/
def run (r : Registry) (actions : List Action) : Registry :=
  actions.foldl (fun r a => (r.perform a).1) r

theorem run_append (r : Registry) (as bs : List Action) :
    r.run (as ++ bs) = (r.run as).run bs := List.foldl_append

theorem perform_register_of_ok (r : Registry) {c : Candidate} {x : Entry} (h : c.entry = .ok x) :
    r.perform (.register c) = (r.put x, none) := by
  rw [perform, registerAll, r.register_of_entry h]
  rfl

theorem perform_register_of_not_usable (r : Registry) {c : Candidate} (h : ¬ c.Usable) :
    r.perform (.register c) = (r, some (.unusableName c)) := by
  rw [perform, registerAll, r.register_of_not_usable h]

/-! ## What a history says about a name -/

/-- Something of that sort was done at place `i` of a history. -/
def HappensAt (P : Action → Prop) (history : List Action) (i : Nat) : Prop :=
  ∃ a, history[i]? = some a ∧ P a

namespace Action

/-- The action registers the kind under the name, and does not fail. -/
def Brings (name : String) (k : Kind) (a : Action) : Prop :=
  a = .register (.kind k) ∧ k.GoesBy name

/-- The action changes what is found under the name. -/
def Concerns (name : String) (a : Action) : Prop := (∃ k, a.Brings name k) ∨ a = .erase name

/-- The action goes back to the start. -/
def isReset : Action → Bool
  | .reset => true
  | .register _ | .erase _ => false

end Action

open QueryStencil.Registry.Action

/-- The last registration of the name that did not fail is at place `i`, it is
of kind `k`, and the name was not erased after it. -/
structure Stands (history : List Action) (name : String) (k : Kind) (i : Nat) : Prop where
  brings : HappensAt (Brings name k) history i
  last : ∀ j k', HappensAt (Brings name k') history j → j ≤ i
  kept : ∀ j, HappensAt (· = .erase name) history j → j < i

/-- The first registration of the name after it was last erased is at place `i`. -/
structure Enters (history : List Action) (name : String) (i : Nat) : Prop where
  brings : ∃ k, HappensAt (Brings name k) history i
  first : ∀ j k, j < i → HappensAt (Brings name k) history j →
    ∃ m, j < m ∧ m < i ∧ HappensAt (· = .erase name) history m
  kept : ∀ j, HappensAt (· = .erase name) history j → j < i

variable {history : List Action} {a : Action} {name : String} {k : Kind} {i : Nat}

theorem Action.brings_register_iff {c : Candidate} {x : Entry} (h : c.entry = .ok x) :
    Brings name k (.register c) ↔ name = x.name ∧ x.kind = k := by
  obtain rfl := Candidate.entry_eq_ok_iff.mp h
  constructor
  · rintro ⟨hk, hgoes⟩
    obtain rfl := Candidate.kind.inj (Action.register.inj hk)
    exact ⟨hgoes.name_eq x.goesBy, rfl⟩
  · rintro ⟨rfl, rfl⟩
    exact ⟨rfl, x.goesBy⟩

theorem Action.concerns_register_iff {c : Candidate} :
    Concerns name (.register c) ↔ c.GoesBy name := by
  constructor
  · rintro (⟨k, hk, hgoes⟩ | herase)
    · exact ⟨k, Action.register.inj hk, hgoes⟩
    · exact Action.noConfusion herase
  · rintro ⟨k, rfl, hgoes⟩
    exact .inl ⟨k, rfl, hgoes⟩

theorem HappensAt.lt {P : Action → Prop} (h : HappensAt P history i) : i < history.length := by
  obtain ⟨a, ha, -⟩ := h
  exact (List.getElem?_eq_some_iff.mp ha).1

theorem happensAt_concat {P : Action → Prop} :
    HappensAt P (history ++ [a]) i ↔ HappensAt P history i ∨ (i = history.length ∧ P a) := by
  constructor
  · rintro ⟨b, hb, hP⟩
    rcases Nat.lt_or_ge i history.length with hi | hi
    · rw [List.getElem?_append_left hi] at hb
      exact .inl ⟨b, hb, hP⟩
    · have hlt := (List.getElem?_eq_some_iff.mp hb).1
      rw [List.length_append, List.length_singleton] at hlt
      obtain rfl : i = history.length := by omega
      rw [List.getElem?_concat_length, Option.some.injEq] at hb
      exact .inr ⟨rfl, hb ▸ hP⟩
  · rintro (⟨b, hb, hP⟩ | ⟨rfl, hP⟩)
    · have hi := (List.getElem?_eq_some_iff.mp hb).1
      exact ⟨b, (List.getElem?_append_left hi).trans hb, hP⟩
    · exact ⟨a, List.getElem?_concat_length, hP⟩

theorem Action.Brings.ne_erase (h : a.Brings name k) : a ≠ .erase name := by
  rw [h.1]
  exact Action.noConfusion

/-- One more action is the last word on the names that it concerns, and on no other. -/
theorem stands_concat :
    Stands (history ++ [a]) name k i
      ↔ (i = history.length ∧ a.Brings name k) ∨ (Stands history name k i ∧ ¬ a.Concerns name) := by
  constructor
  · intro h
    rcases happensAt_concat.mp h.brings with hold | hnew
    · have hi := hold.lt
      refine .inr ⟨⟨hold, ?_, ?_⟩, ?_⟩
      · intro j k' hj
        exact h.last j k' (happensAt_concat.mpr (.inl hj))
      · intro j hj
        exact h.kept j (happensAt_concat.mpr (.inl hj))
      · rintro (⟨k', hbrings⟩ | herases)
        · have := h.last _ k' (happensAt_concat.mpr (.inr ⟨rfl, hbrings⟩))
          omega
        · have := h.kept _ (happensAt_concat.mpr (.inr ⟨rfl, herases⟩))
          omega
    · exact .inl hnew
  · rintro (⟨rfl, hbrings⟩ | ⟨h, hother⟩)
    · refine ⟨happensAt_concat.mpr (.inr ⟨rfl, hbrings⟩), ?_, ?_⟩
      · intro j k' hj
        rcases happensAt_concat.mp hj with hold | ⟨rfl, -⟩
        · exact Nat.le_of_lt hold.lt
        · exact Nat.le_refl _
      · intro j hj
        rcases happensAt_concat.mp hj with hold | ⟨-, herases⟩
        · exact hold.lt
        · exact absurd herases hbrings.ne_erase
    · refine ⟨happensAt_concat.mpr (.inl h.brings), ?_, ?_⟩
      · intro j k' hj
        rcases happensAt_concat.mp hj with hold | ⟨-, hbrings⟩
        · exact h.last j k' hold
        · exact absurd (.inl ⟨k', hbrings⟩) hother
      · intro j hj
        rcases happensAt_concat.mp hj with hold | ⟨-, herases⟩
        · exact h.kept j hold
        · exact absurd (.inr herases) hother

/-- A name that was registered and not erased after it has a last registration. -/
theorem exists_stands {j : Nat} (hbrings : HappensAt (Brings name k) history j)
    (hkept : ∀ m, HappensAt (· = .erase name) history m → m < j) :
    ∃ k' i, Stands history name k' i := by
  induction history using List.reverseRecOn with
  | nil => exact absurd hbrings.lt (Nat.not_lt_zero j)
  | append_singleton history a ih =>
      by_cases hlast : ∃ k', a.Brings name k'
      · obtain ⟨k', hk'⟩ := hlast
        exact ⟨k', history.length, stands_concat.mpr (.inl ⟨rfl, hk'⟩)⟩
      · have hold : HappensAt (Brings name k) history j := by
          rcases happensAt_concat.mp hbrings with hold | ⟨-, hnew⟩
          · exact hold
          · exact absurd ⟨k, hnew⟩ hlast
        have herase : a ≠ .erase name := by
          intro ha
          have := hkept _ (happensAt_concat.mpr (.inr ⟨rfl, ha⟩))
          have := hold.lt
          omega
        obtain ⟨k', i, hstands⟩ := ih hold fun m hm => hkept m (happensAt_concat.mpr (.inl hm))
        exact ⟨k', i, stands_concat.mpr (.inr ⟨hstands, fun h => h.elim hlast herase⟩)⟩

/-- A name keeps its place until it is erased. -/
theorem Enters.concat (h : Enters history name i) (ha : a ≠ .erase name) :
    Enters (history ++ [a]) name i := by
  obtain ⟨k, hbrings⟩ := h.brings
  refine ⟨⟨k, happensAt_concat.mpr (.inl hbrings)⟩, ?_, ?_⟩
  · intro j k' hlt hj
    rcases happensAt_concat.mp hj with hold | ⟨rfl, -⟩
    · obtain ⟨m, hjm, hmi, hm⟩ := h.first j k' hlt hold
      exact ⟨m, hjm, hmi, happensAt_concat.mpr (.inl hm)⟩
    · have := hbrings.lt
      omega
  · intro j hj
    rcases happensAt_concat.mp hj with hold | ⟨-, herases⟩
    · exact h.kept j hold
    · exact absurd herases ha

/-- A name that is not there enters with the action that brings it. -/
theorem enters_concat_length (hbrings : a.Brings name k)
    (hnew : ∀ k' i, ¬ Stands history name k' i) :
    Enters (history ++ [a]) name history.length := by
  refine ⟨⟨k, happensAt_concat.mpr (.inr ⟨rfl, hbrings⟩)⟩, ?_, ?_⟩
  · intro j k' hlt hj
    rcases happensAt_concat.mp hj with hold | ⟨rfl, -⟩
    · apply Classical.byContradiction
      intro hnone
      have hkept : ∀ m, HappensAt (· = .erase name) history m → m < j := by
        intro m hm
        have hlength := hm.lt
        have hne : m ≠ j := by
          rintro rfl
          obtain ⟨b, hb, rfl⟩ := hm
          obtain ⟨b', hb', hbrings'⟩ := hold
          obtain rfl := Option.some.inj (hb.symm.trans hb')
          exact hbrings'.ne_erase rfl
        have hle : ¬ j < m := fun hjm =>
          hnone ⟨m, hjm, hlength, happensAt_concat.mpr (.inl hm)⟩
        omega
      obtain ⟨k'', i, hstands⟩ := exists_stands hold hkept
      exact hnew k'' i hstands
    · exact absurd hlt (Nat.lt_irrefl _)
  · intro j hj
    rcases happensAt_concat.mp hj with hold | ⟨-, herases⟩
    · exact hold.lt
    · exact absurd herases hbrings.ne_erase

end QueryStencil.Registry
