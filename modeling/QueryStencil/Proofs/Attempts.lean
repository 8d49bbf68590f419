/-
# `QueryStencil.Proofs.Attempts` — steps that may fail, one after the other

Where a step is tried on each member of a list, the first one that fails ends
it all.  So the outcome is a result for each member (`mapM_eq_ok_iff`), or the
error of a member behind members that all gave results (`mapM_eq_error_iff`).
-/
import Mathlib.Data.List.Forall2

namespace QueryStencil

variable {α β ε : Type} {f : α → Except ε β} {x : α} {xs : List α}

theorem mapM_cons_of_ok {y : β} (h : f x = .ok y) (xs : List α) :
    (x :: xs).mapM f = (xs.mapM f).map (y :: ·) := by
  rw [List.mapM_cons, h]
  cases xs.mapM f <;> rfl

theorem mapM_cons_of_error {err : ε} (h : f x = .error err) (xs : List α) :
    (x :: xs).mapM f = .error err := by
  rw [List.mapM_cons, h]
  rfl

/-- There is a result in the end if there is one for each member. -/
theorem mapM_eq_ok_iff {ys : List β} :
    xs.mapM f = .ok ys ↔ List.Forall₂ (fun x y => f x = .ok y) xs ys := by
  induction xs generalizing ys with
  | nil =>
      rw [List.forall₂_nil_left_iff]
      exact ⟨fun h => (Except.ok.inj h).symm, fun h => congrArg Except.ok h.symm⟩
  | cons x xs ih =>
      cases hx : f x with
      | error err =>
          rw [mapM_cons_of_error hx]
          refine iff_of_false (fun h => by cases h) ?_
          intro h
          cases h with
          | cons hy _ => cases hx.symm.trans hy
      | ok y =>
          rw [mapM_cons_of_ok hx]
          constructor
          · intro h
            cases hxs : xs.mapM f with
            | error err => rw [hxs] at h; cases h
            | ok rest =>
                rw [hxs] at h
                obtain rfl := Except.ok.inj h
                exact .cons hx (ih.mp hxs)
          · intro h
            cases h with
            | cons hy hrest =>
                obtain rfl := Except.ok.inj (hx.symm.trans hy)
                rw [ih.mpr hrest]
                rfl

theorem exists_mapM_eq_ok_iff :
    (∃ ys, xs.mapM f = .ok ys) ↔ ∀ x ∈ xs, ∃ y, f x = .ok y := by
  induction xs with
  | nil => exact iff_of_true ⟨[], rfl⟩ fun x hx => absurd hx List.not_mem_nil
  | cons x xs ih =>
      rw [List.forall_mem_cons, ← ih]
      cases hx : f x with
      | error err =>
          rw [mapM_cons_of_error hx]
          exact iff_of_false (fun ⟨_, h⟩ => by cases h) (fun ⟨⟨_, h⟩, _⟩ => by cases h)
      | ok y =>
          rw [mapM_cons_of_ok hx]
          cases xs.mapM f with
          | error err => exact iff_of_false (fun ⟨_, h⟩ => by cases h) (fun ⟨_, _, h⟩ => by cases h)
          | ok rest => exact iff_of_true ⟨y :: rest, rfl⟩ ⟨⟨y, rfl⟩, rest, rfl⟩

/-- The error in the end is that of the first member that has no result. -/
theorem mapM_eq_error_iff {err : ε} :
    xs.mapM f = .error err
      ↔ ∃ before x after, xs = before ++ x :: after ∧ (∀ b ∈ before, ∃ y, f b = .ok y)
        ∧ f x = .error err := by
  induction xs with
  | nil =>
      refine iff_of_false (fun h => by cases h) ?_
      rintro ⟨before, x, after, hnil, -⟩
      exact List.append_ne_nil_of_right_ne_nil before (List.cons_ne_nil x after) hnil.symm
  | cons x xs ih =>
      cases hx : f x with
      | error found =>
          rw [mapM_cons_of_error hx]
          constructor
          · intro h
            obtain rfl := Except.error.inj h
            exact ⟨[], x, xs, rfl, fun b hb => absurd hb List.not_mem_nil, hx⟩
          · rintro ⟨before, x', after, hxs, hbefore, hx'⟩
            cases before with
            | nil =>
                obtain ⟨rfl, -⟩ := List.cons.inj hxs
                rw [Except.error.inj (hx.symm.trans hx')]
            | cons b before =>
                obtain ⟨rfl, -⟩ := List.cons.inj hxs
                obtain ⟨y, hy⟩ := hbefore _ List.mem_cons_self
                cases hx.symm.trans hy
      | ok y =>
          rw [mapM_cons_of_ok hx]
          constructor
          · intro h
            cases hxs : xs.mapM f with
            | error found =>
                rw [hxs] at h
                obtain rfl := Except.error.inj h
                obtain ⟨before, x', after, rfl, hbefore, hx'⟩ := ih.mp hxs
                have hall := List.forall_mem_cons.mpr ⟨⟨y, hx⟩, hbefore⟩
                exact ⟨x :: before, x', after, rfl, hall, hx'⟩
            | ok rest => rw [hxs] at h; cases h
          · rintro ⟨before, x', after, hxs, hbefore, hx'⟩
            cases before with
            | nil =>
                obtain ⟨rfl, -⟩ := List.cons.inj hxs
                cases hx.symm.trans hx'
            | cons b before =>
                obtain ⟨rfl, rfl⟩ := List.cons.inj hxs
                have hrest := (List.forall_mem_cons.mp hbefore).2
                rw [ih.mpr ⟨before, x', after, rfl, hrest, hx'⟩]
                rfl

end QueryStencil
