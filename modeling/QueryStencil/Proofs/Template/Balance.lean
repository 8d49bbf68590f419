/-
# `QueryStencil.Proofs.Template.Balance` — what the depth of braces tells

`strays` keeps a depth and the offset at which it last left zero.  Both are
about braces that stand in the text: a stray closing brace is one at its
offset, and so is the opening brace that is reported for an open end
(`standsIn_of_mem_strays`).

Without strays every live closing brace has an open one to close, and none stays
open (`ClosedFrom`).  That does not make every live brace one end of an
occurrence, because the depth may exceed one, and because an occurrence has no
escaped brace in it and the depth does not see those.  These two are all that
can be in the way (`delimited_iff_oneLevel`).
-/
import QueryStencil.Proofs.Template.Occurrence
import QueryStencil.Template.Balance

namespace QueryStencil.Template

/-! ## One character of the scan

A character is a live opening brace, a live closing one, or neither. -/

theorem straysFrom_opener (offset depth outer : Nat) (cs : List Char) :
    straysFrom offset depth outer false ('{' :: cs)
      = straysFrom (offset + 1) (depth + 1) (if depth = 0 then offset else outer) false cs := by
  cases depth <;> rfl

theorem straysFrom_closer_zero (offset outer : Nat) (cs : List Char) :
    straysFrom offset 0 outer false ('}' :: cs)
      = .closer offset :: straysFrom (offset + 1) 0 outer false cs := rfl

theorem straysFrom_closer_succ (offset inner outer : Nat) (cs : List Char) :
    straysFrom offset (inner + 1) outer false ('}' :: cs)
      = straysFrom (offset + 1) inner outer false cs := rfl

theorem straysFrom_other {escaped : Bool} {c : Char} (h : escaped = false → ¬ IsBrace c)
    (offset depth outer : Nat) (cs : List Char) :
    straysFrom offset depth outer escaped (c :: cs)
      = straysFrom (offset + 1) depth outer (c = '\\') cs := by
  have hopen : ¬ (escaped = false ∧ c = '{') := fun hc => h hc.1 (.inl hc.2)
  have hclose : ¬ (escaped = false ∧ c = '}') := fun hc => h hc.1 (.inr hc.2)
  cases depth <;> simp only [straysFrom, if_neg hopen, if_neg hclose]

theorem live_cases (escaped : Bool) (c : Char) :
    (escaped = false ∧ c = '{') ∨ (escaped = false ∧ c = '}')
      ∨ (escaped = false → ¬ IsBrace c) := by
  by_cases hb : IsBrace c
  · cases escaped with
    | true => exact .inr (.inr fun h => nomatch h)
    | false => exact hb.elim (fun h => .inl ⟨rfl, h⟩) (fun h => .inr (.inl ⟨rfl, h⟩))
  · exact .inr (.inr fun _ => hb)

/-! ## Stray braces stand in the text -/

/-- The brace that a stray is. -/
def Stray.brace : Stray → Char
  | .closer _ => '}'
  | .opener _ => '{'

/-- The offset of a stray brace. -/
def Stray.offset : Stray → Nat
  | .closer offset => offset
  | .opener offset => offset

/-- The brace stands at its offset and is not escaped. -/
def Stray.StandsIn (s : Stray) (cs : List Char) : Prop := LiveAt s.brace cs s.offset

/-- The character at which the text goes on is live if the flag says so. -/
theorem liveAt_append_cons {before cs : List Char} {c : Char}
    (h : escapedAfter false before = false) : LiveAt c (before ++ c :: cs) before.length := by
  refine ⟨by simp, ?_⟩
  rw [escaped_append_iff, h]
  exact Bool.false_ne_true

theorem standsIn_of_mem_straysFrom (before : List Char) {depth outer : Nat} {escaped : Bool}
    {cs : List Char} (hesc : escapedAfter false before = escaped)
    (hopen : 0 < depth → LiveAt '{' (before ++ cs) outer) :
    ∀ s ∈ straysFrom before.length depth outer escaped cs, s.StandsIn (before ++ cs) := by
  induction cs generalizing before depth outer escaped with
  | nil =>
      intro s hs
      rw [straysFrom] at hs
      split at hs
      · exact absurd hs List.not_mem_nil
      · obtain rfl := List.mem_singleton.mp hs
        exact hopen (by omega)
  | cons c cs ih =>
      have htext : before ++ c :: cs = (before ++ [c]) ++ cs := by simp
      have hlength : before.length + 1 = (before ++ [c]).length := by simp
      intro s hs
      rcases live_cases escaped c with ⟨rfl, rfl⟩ | ⟨rfl, rfl⟩ | hc
      · rw [straysFrom_opener, hlength] at hs
        rw [htext] at hopen ⊢
        refine ih (before ++ ['{']) (by simp) (fun _ => ?_) s hs
        split
        · rw [← htext]
          exact liveAt_append_cons hesc
        · exact hopen (by omega)
      · cases depth with
        | zero =>
            rw [straysFrom_closer_zero, hlength] at hs
            rcases List.mem_cons.mp hs with rfl | hs
            · exact liveAt_append_cons hesc
            · rw [htext]
              exact ih (before ++ ['}']) (by simp) (fun h => absurd h (by omega)) s hs
        | succ inner =>
            rw [straysFrom_closer_succ, hlength] at hs
            rw [htext] at hopen ⊢
            exact ih (before ++ ['}']) (by simp) (fun _ => hopen (by omega)) s hs
      · rw [straysFrom_other hc, hlength] at hs
        rw [htext] at hopen ⊢
        exact ih (before ++ [c]) (by simp) hopen s hs

theorem standsIn_of_mem_strays {template : String} {s : Stray} (h : s ∈ strays template) :
    s.StandsIn template.toList :=
  standsIn_of_mem_straysFrom [] rfl (fun h => absurd h (by omega)) s h

/-! ## The depth at an offset -/

/-- The depth after one more character. -/
def depthStep (depth : Nat) (escaped : Bool) (c : Char) : Nat :=
  if escaped = false ∧ c = '{' then depth + 1
  else if escaped = false ∧ c = '}' then depth - 1
  else depth

/-- The depth after a text that starts at some depth: one more for each live
opening brace, one less for each live closing one, and never below zero. -/
def depthAfter (depth : Nat) (escaped : Bool) : List Char → Nat
  | [] => depth
  | c :: cs => depthAfter (depthStep depth escaped c) (c = '\\') cs

/-- How many live braces are open before offset `i`. -/
def depthAt (cs : List Char) (i : Nat) : Nat := depthAfter 0 false (cs.take i)

theorem depthAfter_append (depth : Nat) (escaped : Bool) (as bs : List Char) :
    depthAfter depth escaped (as ++ bs)
      = depthAfter (depthAfter depth escaped as) (escapedAfter escaped as) bs := by
  induction as generalizing depth escaped with
  | nil => rfl
  | cons a as ih => exact ih _ _

theorem depthAt_zero (cs : List Char) : depthAt cs 0 = 0 := rfl

theorem depthAt_succ {cs : List Char} {i : Nat} {c : Char} (h : cs[i]? = some c) :
    depthAt cs (i + 1) = depthStep (depthAt cs i) (escapedAfter false (cs.take i)) c := by
  rw [depthAt, List.take_add_one, h, depthAfter_append]
  rfl

theorem escapedAfter_take_eq_false {cs : List Char} {i : Nat} {c : Char} (h : LiveAt c cs i) :
    escapedAfter false (cs.take i) = false := by
  have hi : i < cs.length := (List.getElem?_eq_some_iff.mp h.1).1
  simpa [escaped_iff_escapedAfter_take (Nat.le_of_lt hi)] using h.2

theorem depthAt_succ_opener {cs : List Char} {i : Nat} (h : LiveAt '{' cs i) :
    depthAt cs (i + 1) = depthAt cs i + 1 := by
  rw [depthAt_succ h.1, escapedAfter_take_eq_false h]
  rfl

theorem depthAt_succ_closer {cs : List Char} {i : Nat} (h : LiveAt '}' cs i) :
    depthAt cs (i + 1) = depthAt cs i - 1 := by
  rw [depthAt_succ h.1, escapedAfter_take_eq_false h]
  rfl

/-- The depth changes at live braces only. -/
theorem depthAt_succ_other {cs : List Char} {i : Nat} (hopen : ¬ LiveAt '{' cs i)
    (hclose : ¬ LiveAt '}' cs i) : depthAt cs (i + 1) = depthAt cs i := by
  cases hc : cs[i]? with
  | none =>
      have hi : cs.length ≤ i := List.getElem?_eq_none_iff.mp hc
      rw [depthAt, depthAt, List.take_of_length_le hi, List.take_of_length_le (by omega)]
  | some c =>
      have hi : i < cs.length := (List.getElem?_eq_some_iff.mp hc).1
      have hlive : ∀ {b : Char}, ¬ LiveAt b cs i →
          ¬ (escapedAfter false (cs.take i) = false ∧ c = b) := by
        rintro b hb ⟨hesc, rfl⟩
        refine hb ⟨hc, ?_⟩
        rw [escaped_iff_escapedAfter_take (Nat.le_of_lt hi), hesc]
        exact Bool.false_ne_true
      rw [depthAt_succ hc, depthStep, if_neg (hlive hopen), if_neg (hlive hclose)]

/-! ## No strays -/

/-- From offset `i` on every live closing brace has an open one to close, and at
the end none is open. -/
structure ClosedFrom (cs : List Char) (i : Nat) : Prop where
  closer : ∀ k, i ≤ k → LiveAt '}' cs k → 0 < depthAt cs k
  length : depthAt cs cs.length = 0

theorem ClosedFrom.of_succ {cs : List Char} {i : Nat} (h : ClosedFrom cs (i + 1))
    (hhere : LiveAt '}' cs i → 0 < depthAt cs i) : ClosedFrom cs i := by
  refine ⟨?_, h.length⟩
  intro k hk hlive
  rcases Nat.eq_or_lt_of_le hk with rfl | hk
  · exact hhere hlive
  · exact h.closer k hk hlive

theorem depthAfter_concat (before : List Char) (c : Char) :
    depthAfter 0 false (before ++ [c])
      = depthStep (depthAfter 0 false before) (escapedAfter false before) c := by
  rw [depthAfter_append]
  rfl

theorem depthStep_other {escaped : Bool} {c : Char} (h : escaped = false → ¬ IsBrace c)
    (depth : Nat) : depthStep depth escaped c = depth := by
  rw [depthStep, if_neg (fun hl => h hl.1 (.inl hl.2)), if_neg (fun hl => h hl.1 (.inr hl.2))]

/-- The flag and the character tell a live brace apart, as `LiveAt` does. -/
theorem eq_of_liveAt_append {before cs : List Char} {c b : Char}
    (h : LiveAt b (before ++ c :: cs) before.length) :
    escapedAfter false before = false ∧ c = b := by
  constructor
  · simpa [escaped_append_iff] using h.2
  · simpa using h.1

theorem not_liveAt_append {before cs : List Char} {c b : Char} {escaped : Bool}
    (hesc : escapedAfter false before = escaped) (hc : escaped = false → ¬ IsBrace c)
    (hb : IsBrace b) : ¬ LiveAt b (before ++ c :: cs) before.length := by
  intro hlive
  obtain ⟨hflag, rfl⟩ := eq_of_liveAt_append hlive
  exact hc (hesc.symm.trans hflag) hb

/-- If the scan of the rest reports nothing, the rest is closed. -/
theorem closedFrom_of_straysFrom (before : List Char) {depth outer : Nat} {escaped : Bool}
    {cs : List Char} (hdepth : depthAfter 0 false before = depth)
    (hesc : escapedAfter false before = escaped)
    (h : straysFrom before.length depth outer escaped cs = []) :
    ClosedFrom (before ++ cs) before.length := by
  induction cs generalizing before depth outer escaped with
  | nil =>
      rw [straysFrom] at h
      split at h
      · constructor
        · intro k hk hlive
          have : k < (before ++ []).length := (List.getElem?_eq_some_iff.mp hlive.1).1
          rw [List.append_nil] at this
          omega
        · rw [depthAt, List.take_length, List.append_nil, hdepth]
          assumption
      · exact absurd h (List.cons_ne_nil _ _)
  | cons c cs ih =>
      have htext : before ++ c :: cs = (before ++ [c]) ++ cs := by simp
      have hlength : before.length + 1 = (before ++ [c]).length := by simp
      have hhere : depthAt (before ++ c :: cs) before.length = depth := by
        rw [depthAt, List.take_left, hdepth]
      have hrest : ∀ {outer' : Nat},
          straysFrom (before.length + 1) (depthStep depth escaped c) outer' (c = '\\') cs = [] →
            ClosedFrom (before ++ c :: cs) (before.length + 1) := by
        intro outer' hs
        rw [hlength] at hs ⊢
        rw [htext]
        exact ih (before ++ [c]) (by rw [depthAfter_concat, hdepth, hesc])
          (escapedAfter_concat _ _ _) hs
      rcases live_cases escaped c with ⟨rfl, rfl⟩ | ⟨rfl, rfl⟩ | hc
      · rw [straysFrom_opener] at h
        refine (hrest h).of_succ ?_
        intro hlive
        exact absurd (eq_of_liveAt_append hlive).2 (by decide)
      · cases depth with
        | zero =>
            rw [straysFrom_closer_zero] at h
            exact absurd h (List.cons_ne_nil _ _)
        | succ inner =>
            rw [straysFrom_closer_succ] at h
            refine (hrest h).of_succ ?_
            intro _
            rw [hhere]
            exact Nat.succ_pos inner
      · rw [straysFrom_other hc] at h
        refine (hrest ((depthStep_other hc depth).symm ▸ h)).of_succ ?_
        exact fun hlive => absurd hlive (not_liveAt_append hesc hc (.inr rfl))

theorem closedFrom_zero {template : String} (h : strays template = []) :
    ClosedFrom template.toList 0 :=
  closedFrom_of_straysFrom [] rfl rfl h

/-! ## One level of braces -/

/-- While a brace is open, the only brace of any kind is the live one that closes it. -/
def OneLevel (cs : List Char) : Prop :=
  ∀ i c, cs[i]? = some c → IsBrace c → 0 < depthAt cs i → LiveAt '}' cs i

theorem oneLevel_iff_getElem (cs : List Char) :
    OneLevel cs ↔ ∀ i, ∀ h : i < cs.length, IsBrace cs[i] → 0 < depthAt cs i → LiveAt '}' cs i := by
  constructor
  · intro h i hi
    exact h i cs[i] (List.getElem?_eq_getElem hi)
  · intro h i c hc
    obtain ⟨hi, rfl⟩ := List.getElem?_eq_some_iff.mp hc
    exact h i hi

instance (cs : List Char) : Decidable (OneLevel cs) :=
  decidable_of_iff' _ (oneLevel_iff_getElem cs)

/-- Every live brace is the first or the last character of an occurrence. -/
def Delimited (cs : List Char) : Prop :=
  ∀ i c, IsBrace c → LiveAt c cs i → ∃ a b, Occurrence cs a b ∧ (i = a ∨ i + 1 = b)

section Delimited

variable {cs : List Char} (hclosed : ClosedFrom cs 0)

include hclosed in
/-- If every live brace delimits an occurrence, only what is in an occurrence has a depth. -/
theorem Delimited.depthAt_cases (h : Delimited cs) (i : Nat) :
    depthAt cs i = 0 ∨ (depthAt cs i = 1 ∧ ∃ a b, Occurrence cs a b ∧ a < i ∧ i < b) := by
  induction i with
  | zero => exact .inl (depthAt_zero cs)
  | succ i ih =>
      by_cases hopen : LiveAt '{' cs i
      · obtain ⟨a, b, hocc, hend⟩ := h i '{' (.inl rfl) hopen
        have hwide := hocc.wide
        rcases hend with rfl | hend
        · rcases ih with hzero | ⟨-, a', b', hocc', ha, hb⟩
          · exact .inr ⟨by rw [depthAt_succ_opener hopen, hzero], i, b, hocc, by omega, by omega⟩
          · have := (hocc'.eq_of_overlap hocc (Nat.le_of_lt ha) hb).1
            omega
        · have hclose := hocc.closer
          rw [← hend, Nat.add_sub_cancel] at hclose
          exact absurd (hopen.eq hclose) (by decide)
      · by_cases hclose : LiveAt '}' cs i
        · have hpos := hclosed.closer i (Nat.zero_le i) hclose
          rw [depthAt_succ_closer hclose]
          rcases ih with hzero | ⟨hone, -⟩ <;> exact .inl (by omega)
        · rw [depthAt_succ_other hopen hclose]
          rcases ih with hzero | ⟨hone, a, b, hocc, ha, hb⟩
          · exact .inl hzero
          · have hlast : i ≠ b - 1 := fun he => hclose (he ▸ hocc.closer)
            exact .inr ⟨hone, a, b, hocc, by omega, by omega⟩

include hclosed in
theorem Delimited.oneLevel (h : Delimited cs) : OneLevel cs := by
  intro i c hc hbrace hpos
  rcases h.depthAt_cases hclosed i with hzero | ⟨-, a, b, hocc, ha, hb⟩
  · omega
  · by_cases hin : i < b - 1
    · exact absurd hbrace (hocc.inner i c ha hin hc)
    · have hlast : i = b - 1 := by omega
      exact hlast ▸ hocc.closer

include hclosed in
/-- On one level, only what follows a live opening brace without a brace in between has a depth. -/
theorem OneLevel.depthAt_cases (h : OneLevel cs) (i : Nat) :
    depthAt cs i = 0 ∨ (depthAt cs i = 1 ∧ ∃ a, LiveAt '{' cs a ∧ a < i
      ∧ ∀ k c, a < k → k < i → cs[k]? = some c → ¬ IsBrace c) := by
  induction i with
  | zero => exact .inl (depthAt_zero cs)
  | succ i ih =>
      by_cases hopen : LiveAt '{' cs i
      · rcases ih with hzero | ⟨hone, -⟩
        · refine .inr ⟨by rw [depthAt_succ_opener hopen, hzero], i, hopen, by omega, ?_⟩
          intro k c hk hk'
          omega
        · have hclose := h i '{' hopen.1 (.inl rfl) (by omega)
          exact absurd (hopen.eq hclose) (by decide)
      · by_cases hclose : LiveAt '}' cs i
        · have hpos := hclosed.closer i (Nat.zero_le i) hclose
          rw [depthAt_succ_closer hclose]
          rcases ih with hzero | ⟨hone, -⟩ <;> exact .inl (by omega)
        · rw [depthAt_succ_other hopen hclose]
          rcases ih with hzero | ⟨hone, a, ha, hlt, hbetween⟩
          · exact .inl hzero
          · refine .inr ⟨hone, a, ha, by omega, ?_⟩
            intro k c hk hk' hkc hbrace
            by_cases hki : k = i
            · subst hki
              exact hclose (h k c hkc hbrace (by omega))
            · exact hbetween k c hk (by omega) hkc hbrace

include hclosed in
/-- On one level nothing is open at an opening brace. -/
theorem OneLevel.depthAt_opener (h : OneLevel cs) {a : Nat} (ha : LiveAt '{' cs a) :
    depthAt cs a = 0 := by
  rcases h.depthAt_cases hclosed a with hzero | ⟨hone, -⟩
  · exact hzero
  · have hclose := h a '{' ha.1 (.inl rfl) (by omega)
    exact absurd (ha.eq hclose) (by decide)

include hclosed in
/-- On one level an opening brace that is never closed stays open, with no brace after it. -/
theorem OneLevel.stays_open (h : OneLevel cs) {a : Nat} (ha : LiveAt '{' cs a)
    (hnone : ∀ b, ¬ Occurrence cs a b) (n : Nat) :
    depthAt cs (a + 1 + n) = 1
      ∧ ∀ k c, a < k → k < a + 1 + n → cs[k]? = some c → ¬ IsBrace c := by
  induction n with
  | zero =>
      constructor
      · rw [Nat.add_zero, depthAt_succ_opener ha, h.depthAt_opener hclosed ha]
      · intro k c hk hk'
        omega
  | succ n ih =>
      obtain ⟨hone, hbetween⟩ := ih
      have hnobrace : ∀ c, cs[a + 1 + n]? = some c → ¬ IsBrace c := by
        intro c hc hbrace
        have hclose := h _ c hc hbrace (by omega)
        exact hnone (a + 1 + n + 1) ⟨ha, by simpa using hclose, by omega, by simpa using hbetween⟩
      have hlive : ∀ {b : Char}, IsBrace b → ¬ LiveAt b cs (a + 1 + n) :=
        fun hb hl => hnobrace _ hl.1 hb
      constructor
      · rw [← Nat.add_assoc, depthAt_succ_other (hlive (.inl rfl)) (hlive (.inr rfl)), hone]
      · intro k c hk hk' hkc
        rcases Nat.lt_or_eq_of_le (Nat.le_of_lt_succ hk') with hk' | rfl
        · exact hbetween k c hk hk' hkc
        · exact hnobrace c hkc

include hclosed in
theorem OneLevel.exists_closer (h : OneLevel cs) {a : Nat} (ha : LiveAt '{' cs a) :
    ∃ b, Occurrence cs a b := by
  apply Classical.byContradiction
  intro hnone
  have hlt : a < cs.length := (List.getElem?_eq_some_iff.mp ha.1).1
  have hend : a + 1 + (cs.length - (a + 1)) = cs.length := by omega
  obtain ⟨hopen, -⟩ := h.stays_open hclosed ha (fun b hb => hnone ⟨b, hb⟩) (cs.length - (a + 1))
  rw [hend, hclosed.length] at hopen
  exact Nat.zero_ne_one hopen

include hclosed in
theorem OneLevel.delimited (h : OneLevel cs) : Delimited cs := by
  rintro i c (rfl | rfl) hlive
  · obtain ⟨b, hocc⟩ := h.exists_closer hclosed hlive
    exact ⟨i, b, hocc, .inl rfl⟩
  · have hpos := hclosed.closer i (Nat.zero_le i) hlive
    rcases h.depthAt_cases hclosed i with hzero | ⟨-, a, ha, hlt, hbetween⟩
    · omega
    · exact ⟨a, i + 1, ⟨ha, by simpa using hlive, by omega, by simpa using hbetween⟩, .inr rfl⟩

end Delimited

/-- Without strays, every live brace delimits an occurrence exactly if the braces are on one
level. -/
theorem delimited_iff_oneLevel {template : String} (h : strays template = []) :
    Delimited template.toList ↔ OneLevel template.toList :=
  ⟨fun hd => hd.oneLevel (closedFrom_zero h), fun ho => ho.delimited (closedFrom_zero h)⟩

end QueryStencil.Template
