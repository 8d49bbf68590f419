/-
# `QueryStencil.Proofs.Template.OnePass` — what taking escapes away leaves

`unescape` works in two rounds, one for each brace.  `withoutEscapes` knows no
rounds: it looks at the text as it is, and every backslash that stands directly
before a brace is deleted, all of them at once.  The two agree
(`unescape_eq_withoutEscapes`), and the rounds can change places
(`layBare_comm`).

What is left can have escapes of its own.  Of two backslashes before a brace
the second one is deleted, and then the first one stands before the brace.
Nothing else makes an escape (`escapeFree_unescape_iff`), so a second time
changes nothing exactly if no brace had two backslashes before it.
-/
import QueryStencil.Proofs.Template.Unescape

namespace QueryStencil.Template

/-! ## All escapes at once -/

/-- At offset `i` stands a backslash, and directly after it a brace. -/
def EscapesAt (cs : List Char) (i : Nat) : Prop :=
  cs[i]? = some '\\' ∧ LedByBrace (cs.drop (i + 1))

instance (cs : List Char) (i : Nat) : Decidable (EscapesAt cs i) :=
  inferInstanceAs (Decidable (_ ∧ _))

/-- The characters of a text in their order, without the backslashes directly before a brace. -/
def withoutEscapes (cs : List Char) : List Char :=
  ((List.range cs.length).filter fun i => ¬ EscapesAt cs i).filterMap fun i => cs[i]?

theorem escapesAt_zero_iff {c : Char} {cs : List Char} :
    EscapesAt (c :: cs) 0 ↔ c = '\\' ∧ LedByBrace cs := by
  rw [EscapesAt, List.getElem?_cons_zero, Option.some.injEq]
  rfl

theorem withoutEscapes_cons (c : Char) (cs : List Char) :
    withoutEscapes (c :: cs)
      = if c = '\\' ∧ LedByBrace cs then withoutEscapes cs else c :: withoutEscapes cs := by
  have hrest : (((List.range cs.length).map Nat.succ).filter
      fun i => ¬ EscapesAt (c :: cs) i).filterMap (fun i => (c :: cs)[i]?)
        = withoutEscapes cs := by
    rw [List.filter_map, List.filterMap_map]
    rfl
  rw [withoutEscapes, List.length_cons, List.range_succ_eq_map]
  by_cases hc : c = '\\' ∧ LedByBrace cs
  · have hdeleted : EscapesAt (c :: cs) 0 := escapesAt_zero_iff.mpr hc
    rw [if_pos hc, List.filter_cons_of_neg (by simp [hdeleted]), hrest]
  · have hkept : ¬ EscapesAt (c :: cs) 0 := fun h => hc (escapesAt_zero_iff.mp h)
    rw [if_neg hc, List.filter_cons_of_pos (by simp [hkept])]
    simp only [List.filterMap_cons, List.getElem?_cons_zero, hrest]

theorem unescape_eq_withoutEscapes (cs : List Char) : unescape cs = withoutEscapes cs := by
  induction cs with
  | nil => rfl
  | cons c cs ih => rw [unescape_cons, withoutEscapes_cons, ih]

/-- It does not matter which brace is laid bare first. -/
theorem layBare_comm {a b : Char} (ha : a ≠ '\\') (hb : b ≠ '\\') (hab : a ≠ b)
    (cs : List Char) : layBare a (layBare b cs) = layBare b (layBare a cs) := by
  induction cs with
  | nil => rfl
  | cons c cs ih =>
      rw [layBare_layBare_cons hb ha hab.symm, layBare_layBare_cons ha hb hab, ih]
      simp only [or_comm]

/-! ## Escapes in what is left -/

theorem ledByBrace_iff_exists {cs : List Char} :
    LedByBrace cs ↔ ∃ c, IsBrace c ∧ [c] <+: cs := by
  cases cs with
  | nil => exact iff_of_false id fun ⟨c, _, h⟩ => List.cons_ne_nil c [] (List.prefix_nil.mp h)
  | cons d cs =>
      constructor
      · intro h
        exact ⟨d, h, cs, rfl⟩
      · rintro ⟨c, hc, hstart⟩
        obtain ⟨rfl, -⟩ := List.cons_prefix_cons.mp hstart
        exact hc

theorem escapesAt_zero_iff_exists {cs : List Char} :
    EscapesAt cs 0 ↔ ∃ c, IsBrace c ∧ ['\\', c] <+: cs := by
  cases cs with
  | nil =>
      refine iff_of_false (fun h => nomatch h.1) ?_
      rintro ⟨c, -, hstart⟩
      exact List.cons_ne_nil _ _ (List.prefix_nil.mp hstart)
  | cons d cs =>
      rw [escapesAt_zero_iff, ledByBrace_iff_exists]
      constructor
      · rintro ⟨rfl, c, hc, hstart⟩
        exact ⟨c, hc, List.cons_prefix_cons.mpr ⟨rfl, hstart⟩⟩
      · rintro ⟨c, hc, hstart⟩
        obtain ⟨rfl, hrest⟩ := List.cons_prefix_cons.mp hstart
        exact ⟨rfl, c, hc, hrest⟩

/-- A text starts with a backslash or with a brace, not with both. -/
theorem LedByBrace.not_escapesAt {cs : List Char} (h : LedByBrace cs) : ¬ EscapesAt cs 0 := by
  intro hescapes
  obtain ⟨c, hc, rest, rfl⟩ := ledByBrace_iff_exists.mp h
  exact hc.ne_backslash (escapesAt_zero_iff.mp hescapes).1

/-- A brace comes to the start if it stands there, or behind a backslash there. -/
theorem ledByBrace_unescape_iff {cs : List Char} :
    LedByBrace (unescape cs) ↔ LedByBrace cs ∨ EscapesAt cs 0 := by
  cases cs with
  | nil => exact iff_of_false id fun h => h.elim id fun hnil => nomatch hnil.1
  | cons d cs =>
      rw [escapesAt_zero_iff, unescape_cons]
      by_cases hd : d = '\\' ∧ LedByBrace cs
      · rw [if_pos hd]
        obtain ⟨c, hc, rest, rfl⟩ := ledByBrace_iff_exists.mp hd.2
        rw [List.singleton_append, unescape_cons_of_ne hc.ne_backslash]
        exact iff_of_true hc (.inr ⟨hd.1, hc⟩)
      · rw [if_neg hd, or_iff_left hd]
        exact Iff.rfl

/-- Two backslashes before a brace can stand at the start or later on. -/
theorem forall_not_infix_cons_iff {d : Char} {cs : List Char} :
    (∀ c, IsBrace c → ¬ ['\\', '\\', c] <:+: d :: cs)
      ↔ ¬ (d = '\\' ∧ EscapesAt cs 0) ∧ ∀ c, IsBrace c → ¬ ['\\', '\\', c] <:+: cs := by
  rw [escapesAt_zero_iff_exists]
  constructor
  · intro h
    constructor
    · rintro ⟨rfl, c, hc, hstart⟩
      exact h c hc (List.cons_prefix_cons.mpr ⟨rfl, hstart⟩).isInfix
    · intro c hc hwithin
      exact h c hc (List.infix_cons hwithin)
  · rintro ⟨hfirst, hrest⟩ c hc hwithin
    rcases List.infix_cons_iff.mp hwithin with hstart | hlater
    · obtain ⟨rfl, hbehind⟩ := List.cons_prefix_cons.mp hstart
      exact hfirst ⟨rfl, c, hc, hbehind⟩
    · exact hrest c hc hlater

/-- An escape is left exactly where two backslashes stood before a brace. -/
theorem escapeFree_unescape_iff {cs : List Char} :
    EscapeFree (unescape cs) ↔ ∀ c, IsBrace c → ¬ ['\\', '\\', c] <:+: cs := by
  induction cs with
  | nil =>
      refine iff_of_true (fun i hi => absurd hi (Nat.not_lt_zero i)) ?_
      intro c _ hwithin
      exact List.cons_ne_nil _ _ (List.infix_nil.mp hwithin)
  | cons d cs ih =>
      rw [forall_not_infix_cons_iff, ← ih, unescape_cons]
      -- a backslash that is deleted has no backslash behind it; one that stays makes an escape
      -- if a brace comes to stand behind it
      by_cases hd : d = '\\' ∧ LedByBrace cs
      · rw [if_pos hd, and_iff_right fun h => hd.2.not_escapesAt h.2]
      · rw [if_neg hd, escapeFree_cons, ledByBrace_unescape_iff, and_or_left, or_iff_right hd]

/-! ## Texts -/

/-- Taking escapes away: all at once, in either order of the braces, part by part unless the
first part ends in a backslash, and for good unless two backslashes stand before a brace. -/
theorem unescapeText_onePass :
    (∀ t : String, (unescapeText t).toList = withoutEscapes t.toList
        ∧ unescapeText t = String.ofList (layBare '{' (layBare '}' t.toList)))
      ∧ (∀ a b : String, a.toList.getLast? ≠ some '\\' →
          unescapeText (a ++ b) = unescapeText a ++ unescapeText b)
      ∧ ∀ t : String, unescapeText (unescapeText t) = unescapeText t
          ↔ ∀ c, IsBrace c → ¬ ['\\', '\\', c] <:+: t.toList := by
  refine ⟨fun t => ⟨?_, ?_⟩, ?_, fun t => ?_⟩
  · rw [unescapeText, String.toList_ofList, unescape_eq_withoutEscapes]
  · rw [unescapeText, unescape, layBare_comm (by decide) (by decide) (by decide)]
  · intro a b ha
    rw [unescapeText, String.toList_append,
      unescape_append (.inl (escapedAfter_eq_false_iff.mpr ha)), String.ofList_append]
    rfl
  · rw [← escapeFree_unescape_iff, ← unescape_eq_self_iff, unescapeText, unescapeText,
      String.toList_ofList, String.ofList_inj]

/-- Both braces are escaped, the first one behind two backslashes; the text behind the cut starts
with an escape. -/
theorem unescapeText_onePass_doubled :
    let a := "\\\\\x7ba\\\x7d\\ "
    let b := "\\\x7db\\"
    a.toList = ['\\', '\\', '{', 'a', '\\', '}', '\\', ' ']
      ∧ unescapeText a = "\\\x7ba\x7d\\ " ∧ unescapeText (unescapeText a) = "\x7ba\x7d\\ "
      ∧ a.toList.getLast? ≠ some '\\'
      ∧ unescapeText (a ++ b) = unescapeText a ++ unescapeText b
      ∧ unescapeText (unescapeText b) = unescapeText b := by
  intro a b
  have ha : a.toList.getLast? ≠ some '\\' := by decide +kernel
  have hb : ∀ c, IsBrace c → ¬ ['\\', '\\', c] <:+: b.toList := by
    rintro c (rfl | rfl)
    · decide +kernel
    · decide +kernel
  obtain ⟨-, happend, htwice⟩ := unescapeText_onePass
  exact ⟨by decide +kernel, by decide +kernel, by decide +kernel, ha, happend a b ha,
    (htwice b).mpr hb⟩

end QueryStencil.Template
