/-
# `QueryStencil.Proofs.Template.Unescape` — taking escapes away, part by part

`unescape` lays the opening braces bare and then the closing ones.  What it
does with a character depends on the text as it was, and not on what the first
round made of it: no escape of one brace comes from another brace laid bare
(`layBare_layBare_cons`).  So it can be read as one pass (`unescape_cons`).

`unescape` runs over a text as a whole, and a backslash at the end of one part
may meet a brace at the start of the next.  Where no such pair stands across
the cut, the parts can be treated one by one (`unescape_append`).  A `Sealed`
text has no such pair across either of its ends, whatever stands around it.
-/
import QueryStencil.Proofs.Template.Occurrence

namespace QueryStencil.Template

/-! ## One brace after the other -/

section Braces

variable {a b : Char}

theorem layBare_cons_of_ne {c : Char} (h : c ≠ '\\') (cs : List Char) :
    layBare b (c :: cs) = c :: layBare b cs := by
  cases cs with
  | nil => rfl
  | cons d cs =>
      rw [layBare, if_neg]
      exact fun hc => h hc.1

theorem layBare_cons (hb : b ≠ '\\') (c : Char) (cs : List Char) :
    layBare b (c :: cs)
      = if c = '\\' ∧ cs.head? = some b then layBare b cs else c :: layBare b cs := by
  cases cs with
  | nil => exact (if_neg fun hc => nomatch hc.2).symm
  | cons d cs =>
      simp only [layBare, List.head?_cons, Option.some.injEq]
      split
      · rename_i hc
        obtain ⟨rfl, rfl⟩ := hc
        exact (layBare_cons_of_ne hb cs).symm
      · rfl

/-- To lay one brace bare brings no other one to the start. -/
theorem head?_layBare_iff (ha : a ≠ '\\') (hb : b ≠ '\\') (hab : a ≠ b) (cs : List Char) :
    (layBare a cs).head? = some b ↔ cs.head? = some b := by
  cases cs with
  | nil => exact Iff.rfl
  | cons c cs =>
      rw [layBare_cons ha]
      split
      · rename_i hc
        obtain ⟨rfl, hhead⟩ := hc
        obtain ⟨rest, rfl⟩ := List.head?_eq_some_iff.mp hhead
        rw [layBare_cons_of_ne ha]
        exact iff_of_false (fun h => hab (Option.some.inj h)) (fun h => hb (Option.some.inj h).symm)
      · exact Iff.rfl

/-- Two rounds are one pass: the second sees each backslash where the first saw it. -/
theorem layBare_layBare_cons (ha : a ≠ '\\') (hb : b ≠ '\\') (hab : a ≠ b) (c : Char)
    (cs : List Char) :
    layBare b (layBare a (c :: cs))
      = if c = '\\' ∧ (cs.head? = some a ∨ cs.head? = some b) then layBare b (layBare a cs)
        else c :: layBare b (layBare a cs) := by
  rw [layBare_cons ha]
  by_cases hfirst : c = '\\' ∧ cs.head? = some a
  · rw [if_pos hfirst, if_pos ⟨hfirst.1, .inl hfirst.2⟩]
  · have hsecond : (c = '\\' ∧ (cs.head? = some a ∨ cs.head? = some b))
        ↔ (c = '\\' ∧ cs.head? = some b) := by
      rw [and_or_left, or_iff_right hfirst]
    rw [if_neg hfirst, layBare_cons hb]
    simp only [head?_layBare_iff ha hb hab, hsecond]

end Braces

/-! ## One character -/

theorem IsBrace.ne_backslash {c : Char} (h : IsBrace c) : c ≠ '\\' := by
  rintro rfl
  exact absurd h (by decide)

/-- A brace stands at the start. -/
def LedByBrace : List Char → Prop
  | [] => False
  | c :: _ => IsBrace c

instance : DecidablePred LedByBrace
  | [] => .isFalse id
  | c :: _ => inferInstanceAs (Decidable (IsBrace c))

theorem ledByBrace_iff_head? {cs : List Char} :
    LedByBrace cs ↔ cs.head? = some '{' ∨ cs.head? = some '}' := by
  cases cs with
  | nil => simp [LedByBrace]
  | cons c cs => simp [LedByBrace, IsBrace]

theorem unescape_cons (c : Char) (cs : List Char) :
    unescape (c :: cs)
      = if c = '\\' ∧ LedByBrace cs then unescape cs else c :: unescape cs := by
  simp only [ledByBrace_iff_head?]
  exact layBare_layBare_cons (by decide) (by decide) (by decide) c cs

theorem unescape_cons_of_ne {c : Char} (h : c ≠ '\\') (cs : List Char) :
    unescape (c :: cs) = c :: unescape cs := by
  rw [unescape_cons, if_neg]
  exact fun hc => h hc.1

/-- Nothing is put in. -/
theorem mem_of_mem_unescape {c : Char} {cs : List Char} (h : c ∈ unescape cs) : c ∈ cs := by
  induction cs with
  | nil => exact h
  | cons d cs ih =>
      rw [unescape_cons] at h
      split at h
      · exact List.mem_cons_of_mem d (ih h)
      · rcases List.mem_cons.mp h with rfl | h
        · exact List.mem_cons_self
        · exact List.mem_cons_of_mem d (ih h)

/-! ## Texts without escapes -/

/-- No backslash stands directly before a brace. -/
def EscapeFree (cs : List Char) : Prop := ∀ i, ∀ h : i < cs.length, IsBrace cs[i] → ¬ Escaped cs i

instance (cs : List Char) : Decidable (EscapeFree cs) :=
  inferInstanceAs (Decidable (∀ i, ∀ _ : i < _, _))

/-- One more character makes an escape with the next one only. -/
theorem escapeFree_cons (c : Char) (cs : List Char) :
    EscapeFree (c :: cs) ↔ ¬ (c = '\\' ∧ LedByBrace cs) ∧ EscapeFree cs := by
  constructor
  · intro h
    constructor
    · rintro ⟨rfl, hled⟩
      cases cs with
      | nil => exact hled
      | cons d cs => exact h 1 (by simp) hled ⟨Nat.one_pos, rfl⟩
    · intro i hi hbrace hescaped
      refine h (i + 1) (Nat.succ_lt_succ hi) hbrace ⟨Nat.succ_pos i, ?_⟩
      obtain ⟨k, rfl⟩ : ∃ k, i = k + 1 := ⟨i - 1, by have := hescaped.1; omega⟩
      exact hescaped.2
  · rintro ⟨hfirst, hrest⟩ i hi hbrace ⟨hpos, hback⟩
    obtain ⟨k, rfl⟩ : ∃ k, i = k + 1 := ⟨i - 1, by omega⟩
    have hk : k < cs.length := Nat.lt_of_succ_lt_succ hi
    cases k with
    | zero =>
        cases cs with
        | nil => exact absurd hk (Nat.not_lt_zero 0)
        | cons d cs => exact hfirst ⟨Option.some.inj hback, hbrace⟩
    | succ k => exact hrest (k + 1) hk hbrace ⟨Nat.succ_pos k, hback⟩

theorem length_unescape_le (cs : List Char) : (unescape cs).length ≤ cs.length := by
  induction cs with
  | nil => exact Nat.le_refl 0
  | cons c cs ih =>
      rw [unescape_cons]
      split
      · exact Nat.le_succ_of_le ih
      · exact Nat.succ_le_succ ih

/-- To take escapes away changes exactly the texts that have some. -/
theorem unescape_eq_self_iff {cs : List Char} : unescape cs = cs ↔ EscapeFree cs := by
  induction cs with
  | nil => exact iff_of_true rfl fun i hi => absurd hi (Nat.not_lt_zero i)
  | cons c cs ih =>
      rw [escapeFree_cons, unescape_cons]
      by_cases hc : c = '\\' ∧ LedByBrace cs
      · rw [if_pos hc]
        refine iff_of_false ?_ fun h => h.1 hc
        intro heq
        have hle := length_unescape_le cs
        rw [heq, List.length_cons] at hle
        exact absurd hle (Nat.not_succ_le_self _)
      · rw [if_neg hc, List.cons.injEq, ih]
        exact ⟨fun h => ⟨hc, h.2⟩, fun h => ⟨rfl, h.2⟩⟩

/-! ## Two parts -/

/-- Two parts can be treated apart if no backslash at the end of the first
meets a brace at the start of the second. -/
theorem unescape_append {as bs : List Char}
    (h : escapedAfter false as = false ∨ ¬ LedByBrace bs) :
    unescape (as ++ bs) = unescape as ++ unescape bs := by
  induction as with
  | nil => rfl
  | cons a as ih =>
      cases as with
      | nil =>
          have hlast : ¬ (a = '\\' ∧ LedByBrace bs) := by
            rintro ⟨rfl, hbrace⟩
            rcases h with hback | hfront
            · exact nomatch hback
            · exact hfront hbrace
          rw [List.singleton_append, unescape_cons, if_neg hlast]
          rfl
      | cons a' as =>
          have hled : LedByBrace (a' :: as ++ bs) ↔ LedByBrace (a' :: as) := Iff.rfl
          rw [List.cons_append, unescape_cons, unescape_cons, ih h]
          simp only [hled]
          split
          · rfl
          · rfl

/-! ## Escaped texts -/

/-- An escaped text starts with a backslash if it starts with a brace. -/
theorem not_ledByBrace_escape (cs : List Char) : ¬ LedByBrace (escape cs) := by
  cases cs with
  | nil => exact id
  | cons c cs =>
      rw [escape]
      split
      · show ¬ IsBrace '\\'
        decide
      · assumption

theorem unescape_escape (cs : List Char) : unescape (escape cs) = cs := by
  induction cs with
  | nil => rfl
  | cons c cs ih =>
      rw [escape]
      split
      · rename_i hc
        rw [unescape_cons, if_pos ⟨rfl, hc⟩, unescape_cons_of_ne hc.ne_backslash, ih]
      · rw [unescape_cons, if_neg fun h => not_ledByBrace_escape cs h.2, ih]

/-- Escaping leaves the end of a text as it is. -/
theorem escapedAfter_escape (escaped : Bool) (cs : List Char) :
    escapedAfter escaped (escape cs) = escapedAfter escaped cs := by
  induction cs generalizing escaped with
  | nil => rfl
  | cons c cs ih =>
      rw [escape]
      split
      · exact ih _
      · exact ih _

/-! ## Sealed texts -/

/-- A text with something in it, no brace at its start and no backslash at its end. -/
structure Sealed (cs : List Char) : Prop where
  ne_nil : cs ≠ []
  front : ¬ LedByBrace cs
  back : escapedAfter false cs = false

/-- What follows a sealed text does not change how it starts. -/
theorem Sealed.not_ledByBrace_append {cs : List Char} (h : Sealed cs) (rest : List Char) :
    ¬ LedByBrace (cs ++ rest) := by
  cases cs with
  | nil => exact absurd rfl h.ne_nil
  | cons c cs => exact h.front

theorem Sealed.append {as bs : List Char} (ha : Sealed as) (hb : Sealed bs) :
    Sealed (as ++ bs) := by
  refine ⟨List.append_ne_nil_of_left_ne_nil ha.ne_nil bs, ha.not_ledByBrace_append bs, ?_⟩
  rw [escapedAfter_append, ha.back, hb.back]

/-- Around a sealed text nothing changes, so the three parts can be treated apart. -/
theorem Sealed.unescape_append {cs : List Char} (h : Sealed cs) (before rest : List Char) :
    unescape (before ++ cs ++ rest) = unescape before ++ unescape cs ++ unescape rest := by
  rw [List.append_assoc, Template.unescape_append (.inr (h.not_ledByBrace_append rest)),
    Template.unescape_append (.inl h.back), List.append_assoc]

/-- A text without braces and backslashes is sealed if there is any text. -/
theorem Sealed.of_forall {cs : List Char} (hne : cs ≠ [])
    (h : ∀ c ∈ cs, c ≠ '\\' ∧ ¬ IsBrace c) : Sealed cs := by
  refine ⟨hne, ?_, ?_⟩
  · cases cs with
    | nil => exact id
    | cons c cs => exact (h c List.mem_cons_self).2
  · obtain ⟨before, c, rfl⟩ : ∃ before c, cs = before ++ [c] :=
      ⟨cs.dropLast, cs.getLast hne, (List.dropLast_concat_getLast hne).symm⟩
    rw [escapedAfter_concat]
    exact decide_eq_false (h c (by simp)).1

end QueryStencil.Template
