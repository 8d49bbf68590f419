/-
# `QueryStencil.Proofs.Workspace` — one registry, and an engine that joins the others

A seat refers to a registry by place, so what is done to the registry is seen from
every seat that refers to that place.  When an engine joins, the registry is
prepared for it, and the others find what the preparation has left, whether it
succeeds or not (`joinEngine_shared`).
-/
import QueryStencil.Workspace

namespace QueryStencil

/-! ## Values under keys -/

section Assign

variable {α : Type}

theorem lookup_cons_eq_ite (key : String) (value : α) (xs : List (String × α)) (k : String) :
    ((key, value) :: xs).lookup k = if k = key then some value else xs.lookup k := by
  by_cases hk : k = key
  · rw [if_pos hk, hk, List.lookup_cons_self]
  · rw [if_neg hk, List.lookup_cons, beq_false_of_ne hk]

theorem lookup_assign (key : String) (value : α) (xs : List (String × α)) (k : String) :
    (assign key value xs).lookup k = if k = key then some value else xs.lookup k := by
  induction xs with
  | nil => exact lookup_cons_eq_ite key value [] k
  | cons x xs ih =>
      obtain ⟨key', value'⟩ := x
      rw [assign, lookup_cons_eq_ite key']
      split
      · rename_i hkey
        rw [lookup_cons_eq_ite, hkey]
        split
        · rfl
        · rfl
      · rename_i hkey
        rw [lookup_cons_eq_ite, ih]
        by_cases hk : k = key'
        · rw [if_pos hk, if_pos hk, if_neg (hk ▸ hkey)]
        · rw [if_neg hk, if_neg hk]

end Assign

/-! ## Joining -/

namespace Workspace

variable {w : Workspace} {name shared : String} {more : List Candidate} {settings : Settings}
  {seat : Seat} {r : Registry}

section Join

variable (hseat : w.seats.lookup shared = some seat) (hr : w.registries[seat.place]? = some r)

include hseat hr

/-- The registry keeps what was registered, and there is a new engine if there was no error. -/
theorem joinEngine_eq :
    w.joinEngine name shared more settings
      = ({ w with
            registries := w.registries.set seat.place (r.prepare more settings.fallback).1
            seats :=
              if (r.prepare more settings.fallback).2 = none then
                assign name ⟨seat.place, some settings⟩ w.seats
              else w.seats },
          (r.prepare more settings.fallback).2) := by
  have hshared : w.registry? shared = some r := by
    rw [ registry?, hseat]
    exact hr
  rw [joinEngine, hshared]
  cases hprepare : r.prepare more settings.fallback with
  | mk r' err =>
      cases err with
      | some e => simp [setRegistry, hseat, hprepare]
      | none => simp [setRegistry, hseat, wireEngine, hprepare]

/-- Only the seat of a new engine is taken. -/
theorem lookup_seats_joinEngine (other : String) :
    (w.joinEngine name shared more settings).1.seats.lookup other
      = if other = name ∧ (r.prepare more settings.fallback).2 = none then
          some ⟨seat.place, some settings⟩
        else w.seats.lookup other := by
  rw [joinEngine_eq hseat hr]
  by_cases herr : (r.prepare more settings.fallback).2 = none
  · simp [herr, lookup_assign]
  · simp [herr]

theorem getElem?_registries_joinEngine (place : Nat) :
    (w.joinEngine name shared more settings).1.registries[place]?
      = if place = seat.place then some (r.prepare more settings.fallback).1
        else w.registries[place]? := by
  have hlt : seat.place < w.registries.length := (List.getElem?_eq_some_iff.mp hr).1
  rw [joinEngine_eq hseat hr]
  by_cases hplace : place = seat.place
  · rw [if_pos hplace, hplace]
    exact List.getElem?_set_self hlt
  · rw [if_neg hplace]
    exact List.getElem?_set_ne (Ne.symm hplace)

/-- Every engine at the place of the registry finds what was registered, also on an error, and
engines at other places find what they had.  Without an error there is the new engine. -/
theorem joinEngine_shared :
    let prepared := r.prepare more settings.fallback
    let joined := w.joinEngine name shared more settings
    joined.2 = prepared.2
      ∧ (∀ other s, other ≠ name ∨ prepared.2 ≠ none → w.seats.lookup other = some s →
        registry? joined.1 other
          = if s.place = seat.place then some prepared.1 else w.registry? other)
      ∧ (prepared.2 = none → joined.1.engine? name = some ⟨prepared.1, settings⟩) := by
  intro prepared joined
  refine ⟨congrArg Prod.snd (joinEngine_eq hseat hr), ?_, ?_⟩
  · intro other s hother hs
    have hlookup : joined.1.seats.lookup other = some s := by
      rw [lookup_seats_joinEngine hseat hr, if_neg, hs]
      exact fun hnew => hother.elim (· hnew.1) (· hnew.2)
    rw [ registry?, registry?, hlookup, hs]
    exact getElem?_registries_joinEngine hseat hr s.place
  · intro hnone
    have hlookup : joined.1.seats.lookup name = some ⟨seat.place, some settings⟩ := by
      rw [lookup_seats_joinEngine hseat hr, if_pos ⟨rfl, hnone⟩]
    have hplace : joined.1.registries[seat.place]? = some prepared.1 := by
      rw [getElem?_registries_joinEngine hseat hr, if_pos rfl]
    simp [engine?, hlookup, hplace]

end Join

end Workspace

end QueryStencil
