/-
# `QueryStencil.Proofs.Template.Pairing` — which braces are partners

Live braces pair up as they come: a closing brace is the partner of the opening
one that was opened last and still waits, and if none waits it has no partner.
`pairing` does this with a stack of all that wait.

What comes of it is told without a stack by `Matching`: every live brace is in
one place, between partners all braces are partners of each other, and no opening
brace waits in front of a closing one that is alone.  One offset keeps this
(`Matching.look`), so it holds of the whole text (`matching_pairing`).

The scan behind `strays` has no stack.  It has the height of one and what lies
at the bottom of it, and that is enough to tell which braces are left over in
the end (`strays_eq`): all closing ones that are alone, and of the opening ones
the first.  No end of an occurrence is left over, because its other end would
have to be left over too (`Matching.not_mem_waiting_of_occurrence`).
-/
import Mathlib.Data.List.Basic
import QueryStencil.Proofs.Template.Balance

namespace QueryStencil.Template

/-- The live braces up to some offset, as far as they have partners. -/
structure Pairing where
  /-- The opening braces that wait for a partner, the last one first. -/
  waiting : List Nat
  /-- An opening brace and the closing one that is its partner. -/
  pairs : List (Nat × Nat)
  /-- The closing braces that have no partner, in order. -/
  alone : List Nat
deriving DecidableEq

namespace Pairing

/-- The pairing with the brace at offset `i`, if there is a live one. -/
def look (cs : List Char) (p : Pairing) (i : Nat) : Pairing :=
  if LiveAt '{' cs i then { p with waiting := i :: p.waiting }
  else if LiveAt '}' cs i then
    match p.waiting with
    | [] => { p with alone := p.alone ++ [i] }
    | opener :: rest => { p with waiting := rest, pairs := p.pairs ++ [(opener, i)] }
  else p

end Pairing

/-- The pairing of the braces before offset `n`. -/
def pairingTo (cs : List Char) (n : Nat) : Pairing :=
  (List.range n).foldl (Pairing.look cs) ⟨[], [], []⟩

/-- The pairing of all braces of a text. -/
def pairing (cs : List Char) : Pairing := pairingTo cs cs.length

namespace Pairing

variable {cs : List Char} {p : Pairing} {i : Nat}

/-! ## One offset -/

theorem look_of_opener (h : LiveAt '{' cs i) :
    p.look cs i = { p with waiting := i :: p.waiting } := by
  rw [look, if_pos h]

theorem not_opener_of_closer (h : LiveAt '}' cs i) : ¬ LiveAt '{' cs i :=
  fun hopen => absurd (hopen.eq h) (by decide)

theorem look_of_closer_nil (h : LiveAt '}' cs i) (hp : p.waiting = []) :
    p.look cs i = { p with alone := p.alone ++ [i] } := by
  rw [look, if_neg (not_opener_of_closer h), if_pos h, hp]

theorem look_of_closer_cons {opener : Nat} {rest : List Nat} (h : LiveAt '}' cs i)
    (hp : p.waiting = opener :: rest) :
    p.look cs i = { p with waiting := rest, pairs := p.pairs ++ [(opener, i)] } := by
  rw [look, if_neg (not_opener_of_closer h), if_pos h, hp]

theorem look_of_other (hopen : ¬ LiveAt '{' cs i) (hclose : ¬ LiveAt '}' cs i) :
    p.look cs i = p := by
  rw [look, if_neg hopen, if_neg hclose]

end Pairing

/-! ## Partners, told without a stack -/

/-- The live braces `c` of a text before offset `n`, in order. -/
def liveBefore (c : Char) (cs : List Char) (n : Nat) : List Nat :=
  (List.range n).filter fun i => LiveAt c cs i

/-- The braces before offset `n` are paired, the last one opened being the first one closed. -/
structure Matching (cs : List Char) (n : Nat) (p : Pairing) : Prop where
  /-- Each opening brace waits or has a partner, and not two. -/
  openers : (p.waiting ++ p.pairs.map Prod.fst).Perm (liveBefore '{' cs n)
  /-- Each closing brace is alone or has a partner, and not two. -/
  closers : (p.alone ++ p.pairs.map Prod.snd).Perm (liveBefore '}' cs n)
  forward : ∀ x ∈ p.pairs, x.1 < x.2
  /-- Between partners every brace has a partner. -/
  inside : ∀ x ∈ p.pairs, ∀ i, x.1 < i → i < x.2 → i ∉ p.waiting ∧ i ∉ p.alone
  /-- Partners do not cross. -/
  nested : ∀ x ∈ p.pairs, ∀ y ∈ p.pairs, x.1 < y.1 → y.1 < x.2 → y.2 < x.2
  /-- Nothing waited when a closing brace was left alone. -/
  alone_first : ∀ i ∈ p.alone, ∀ j ∈ p.waiting, i < j
  waiting_descend : p.waiting.Pairwise (· > ·)
  alone_ascend : p.alone.Pairwise (· < ·)

section LiveBefore

variable {c : Char} {cs : List Char} {n i : Nat}

theorem mem_liveBefore : i ∈ liveBefore c cs n ↔ i < n ∧ LiveAt c cs i := by
  rw [liveBefore, List.mem_filter, List.mem_range, decide_eq_true_eq]

theorem liveBefore_succ (h : LiveAt c cs n) :
    liveBefore c cs (n + 1) = liveBefore c cs n ++ [n] := by
  rw [liveBefore, List.range_succ, List.filter_append, liveBefore,
    List.filter_singleton, decide_eq_true h]
  rfl

theorem liveBefore_succ_of_not (h : ¬ LiveAt c cs n) :
    liveBefore c cs (n + 1) = liveBefore c cs n := by
  rw [liveBefore, List.range_succ, List.filter_append, liveBefore,
    List.filter_singleton, decide_eq_false h]
  exact List.append_nil _

end LiveBefore

namespace Matching

variable {cs : List Char} {n i : Nat} {p : Pairing}

theorem of_mem_waiting (h : Matching cs n p) (hi : i ∈ p.waiting) : i < n ∧ LiveAt '{' cs i :=
  mem_liveBefore.mp (h.openers.mem_iff.mp (List.mem_append_left _ hi))

theorem of_mem_alone (h : Matching cs n p) (hi : i ∈ p.alone) : i < n ∧ LiveAt '}' cs i :=
  mem_liveBefore.mp (h.closers.mem_iff.mp (List.mem_append_left _ hi))

theorem fst_of_mem_pairs (h : Matching cs n p) {x : Nat × Nat} (hx : x ∈ p.pairs) :
    x.1 < n ∧ LiveAt '{' cs x.1 :=
  mem_liveBefore.mp
    (h.openers.mem_iff.mp (List.mem_append_right _ (List.mem_map_of_mem hx)))

theorem snd_of_mem_pairs (h : Matching cs n p) {x : Nat × Nat} (hx : x ∈ p.pairs) :
    x.2 < n ∧ LiveAt '}' cs x.2 :=
  mem_liveBefore.mp
    (h.closers.mem_iff.mp (List.mem_append_right _ (List.mem_map_of_mem hx)))

theorem opener_cases (h : Matching cs n p) (hi : i < n) (hlive : LiveAt '{' cs i) :
    i ∈ p.waiting ∨ ∃ j, (i, j) ∈ p.pairs := by
  have hmem := h.openers.mem_iff.mpr (mem_liveBefore.mpr ⟨hi, hlive⟩)
  rcases List.mem_append.mp hmem with hwaiting | hpair
  · exact .inl hwaiting
  · obtain ⟨x, hx, rfl⟩ := List.mem_map.mp hpair
    exact .inr ⟨x.2, hx⟩

theorem closer_cases (h : Matching cs n p) (hi : i < n) (hlive : LiveAt '}' cs i) :
    i ∈ p.alone ∨ ∃ a, (a, i) ∈ p.pairs := by
  have hmem := h.closers.mem_iff.mpr (mem_liveBefore.mpr ⟨hi, hlive⟩)
  rcases List.mem_append.mp hmem with halone | hpair
  · exact .inl halone
  · obtain ⟨x, hx, rfl⟩ := List.mem_map.mp hpair
    exact .inr ⟨x.1, hx⟩

/-! ## One offset keeps it -/

theorem look_opener (h : Matching cs n p) (hlive : LiveAt '{' cs n) :
    Matching cs (n + 1) (p.look cs n) := by
  have hclose : ¬ LiveAt '}' cs n := fun hc => Pairing.not_opener_of_closer hc hlive
  rw [Pairing.look_of_opener hlive]
  constructor
  case openers =>
    rw [liveBefore_succ hlive]
    exact (h.openers.cons n).trans (List.perm_append_singleton n _).symm
  case closers =>
    rw [liveBefore_succ_of_not hclose]
    exact h.closers
  case forward => exact h.forward
  case inside =>
    intro x hx i hi hi'
    obtain ⟨hwaiting, halone⟩ := h.inside x hx i hi hi'
    refine ⟨?_, halone⟩
    intro hmem
    rcases List.mem_cons.mp hmem with rfl | hmem
    · have := (h.snd_of_mem_pairs hx).1
      omega
    · exact hwaiting hmem
  case nested => exact h.nested
  case alone_first =>
    intro i hi j hj
    rcases List.mem_cons.mp hj with rfl | hj
    · exact (h.of_mem_alone hi).1
    · exact h.alone_first i hi j hj
  case waiting_descend =>
    exact List.pairwise_cons.mpr ⟨fun j hj => (h.of_mem_waiting hj).1, h.waiting_descend⟩
  case alone_ascend => exact h.alone_ascend

theorem look_closer_nil (h : Matching cs n p) (hlive : LiveAt '}' cs n) (hp : p.waiting = []) :
    Matching cs (n + 1) (p.look cs n) := by
  rw [Pairing.look_of_closer_nil hlive hp]
  constructor
  case openers =>
    rw [liveBefore_succ_of_not (Pairing.not_opener_of_closer hlive)]
    exact h.openers
  case closers =>
    rw [liveBefore_succ hlive, List.append_assoc]
    refine (List.perm_append_comm.append_left p.alone).trans ?_
    rw [← List.append_assoc]
    exact h.closers.append_right [n]
  case forward => exact h.forward
  case inside =>
    intro x hx i hi hi'
    obtain ⟨hwaiting, halone⟩ := h.inside x hx i hi hi'
    refine ⟨hwaiting, ?_⟩
    intro hmem
    rcases List.mem_append.mp hmem with hmem | hmem
    · exact halone hmem
    · have := (h.snd_of_mem_pairs hx).1
      have := List.mem_singleton.mp hmem
      omega
  case nested => exact h.nested
  case alone_first =>
    intro i _ j hj
    rw [hp] at hj
    exact absurd hj List.not_mem_nil
  case waiting_descend => exact h.waiting_descend
  case alone_ascend =>
    refine List.pairwise_append.mpr ⟨h.alone_ascend, List.pairwise_singleton _ _, ?_⟩
    intro i hi j hj
    rw [List.mem_singleton.mp hj]
    exact (h.of_mem_alone hi).1

theorem look_closer_cons (h : Matching cs n p) (hlive : LiveAt '}' cs n) {a : Nat}
    {rest : List Nat} (hp : p.waiting = a :: rest) : Matching cs (n + 1) (p.look cs n) := by
  have ha : a ∈ p.waiting := hp ▸ List.mem_cons_self
  have hrest : ∀ {i}, i ∈ rest → i ∈ p.waiting := fun hi => hp ▸ List.mem_cons_of_mem a hi
  obtain ⟨hbelow, hdescend⟩ := List.pairwise_cons.mp (hp ▸ h.waiting_descend)
  have hopeners := h.openers
  rw [hp] at hopeners
  rw [Pairing.look_of_closer_cons hlive hp]
  constructor
  case openers =>
    rw [liveBefore_succ_of_not (Pairing.not_opener_of_closer hlive), List.map_append,
      ← List.append_assoc]
    exact (List.perm_append_singleton a _).trans hopeners
  case closers =>
    rw [liveBefore_succ hlive, List.map_append, ← List.append_assoc]
    exact h.closers.append_right [n]
  case forward =>
    intro x hx
    rcases List.mem_append.mp hx with hx | hx
    · exact h.forward x hx
    · rw [List.mem_singleton.mp hx]
      exact (h.of_mem_waiting ha).1
  case inside =>
    intro x hx i hi hi'
    rcases List.mem_append.mp hx with hx | hx
    · obtain ⟨hwaiting, halone⟩ := h.inside x hx i hi hi'
      exact ⟨fun hmem => hwaiting (hrest hmem), halone⟩
    · obtain rfl := List.mem_singleton.mp hx
      constructor
      · intro hmem
        exact Nat.lt_asymm hi (hbelow i hmem)
      · intro hmem
        exact Nat.lt_asymm hi (h.alone_first i hmem a ha)
  case nested =>
    intro x hx y hy hlt hlt'
    rcases List.mem_append.mp hx with hx | hx
    · rcases List.mem_append.mp hy with hy | hy
      · exact h.nested x hx y hy hlt hlt'
      · obtain rfl := List.mem_singleton.mp hy
        exact absurd ha (h.inside x hx a hlt hlt').1
    · rcases List.mem_append.mp hy with hy | hy
      · obtain rfl := List.mem_singleton.mp hx
        exact (h.snd_of_mem_pairs hy).1
      · rw [List.mem_singleton.mp hx, List.mem_singleton.mp hy] at hlt
        exact absurd hlt (Nat.lt_irrefl _)
  case alone_first =>
    intro i hi j hj
    exact h.alone_first i hi j (hrest hj)
  case waiting_descend => exact hdescend
  case alone_ascend => exact h.alone_ascend

/-- One offset keeps a matching, whatever stands there. -/
theorem look (h : Matching cs n p) : Matching cs (n + 1) (p.look cs n) := by
  by_cases hopen : LiveAt '{' cs n
  · exact h.look_opener hopen
  by_cases hclose : LiveAt '}' cs n
  · cases hp : p.waiting with
    | nil => exact h.look_closer_nil hclose hp
    | cons a rest => exact h.look_closer_cons hclose hp
  · rw [Pairing.look_of_other hopen hclose]
    exact { h with
      openers := liveBefore_succ_of_not hopen ▸ h.openers
      closers := liveBefore_succ_of_not hclose ▸ h.closers }

/-! ## Occurrences -/

theorem not_mem_pairs_of_waiting (h : Matching cs n p) (hi : i ∈ p.waiting) (j : Nat) :
    (i, j) ∉ p.pairs := by
  have hnodup : (p.waiting ++ p.pairs.map Prod.fst).Nodup :=
    h.openers.nodup_iff.mpr (List.nodup_range.filter _)
  intro hpair
  exact (List.nodup_append.mp hnodup).2.2 i hi i (List.mem_map_of_mem hpair) rfl

theorem not_mem_pairs_of_alone (h : Matching cs n p) (hi : i ∈ p.alone) (a : Nat) :
    (a, i) ∉ p.pairs := by
  have hnodup : (p.alone ++ p.pairs.map Prod.snd).Nodup :=
    h.closers.nodup_iff.mpr (List.nodup_range.filter _)
  intro hpair
  exact (List.nodup_append.mp hnodup).2.2 i hi i (List.mem_map_of_mem hpair) rfl

variable {a b : Nat}

/-- The opening brace of an occurrence does not wait: whatever the partner of its closing brace
is, it would stand in the way. -/
theorem not_mem_waiting_of_occurrence (h : Matching cs n p) (hocc : Occurrence cs a b)
    (hb : b ≤ n) : a ∉ p.waiting := by
  have hwide := hocc.wide
  intro ha
  rcases h.closer_cases (by omega) hocc.closer with halone | ⟨c, hpair⟩
  · have := h.alone_first _ halone a ha
    omega
  -- the partner `c` of the closing brace is before `a`, at `a`, or inside the occurrence
  · rcases Nat.lt_trichotomy c a with hlt | rfl | hgt
    · exact (h.inside _ hpair a hlt hwide).1 ha
    · exact h.not_mem_pairs_of_waiting ha _ hpair
    · have hforward := h.forward _ hpair
      exact hocc.inner c _ hgt hforward (h.fst_of_mem_pairs hpair).2.1 (.inl rfl)

theorem not_mem_alone_of_occurrence (h : Matching cs n p) (hocc : Occurrence cs a b)
    (hb : b ≤ n) : b - 1 ∉ p.alone := by
  have hwide := hocc.wide
  intro halone
  rcases h.opener_cases (by omega) hocc.opener with ha | ⟨d, hpair⟩
  · have := h.alone_first _ halone a ha
    omega
  · have hforward := h.forward _ hpair
    rcases Nat.lt_trichotomy d (b - 1) with hlt | rfl | hgt
    · exact hocc.inner d _ hforward hlt (h.snd_of_mem_pairs hpair).2.1 (.inr rfl)
    · exact h.not_mem_pairs_of_alone halone _ hpair
    · exact (h.inside _ hpair (b - 1) hwide hgt).2 halone

end Matching

theorem matching_pairingTo (cs : List Char) (n : Nat) : Matching cs n (pairingTo cs n) := by
  induction n with
  | zero => constructor <;> simp [pairingTo, liveBefore]
  | succ n ih =>
      rw [pairingTo, List.range_succ, List.foldl_concat]
      exact ih.look

theorem matching_pairing (cs : List Char) : Matching cs cs.length (pairing cs) :=
  matching_pairingTo cs cs.length

-- an escaped brace has no part in it, and the first of two opening ones waits
example : pairing "\x7d\x7ba\x7d\\\x7d\x7b\x7bb\x7d".toList = ⟨[6], [(1, 3), (7, 9)], [0]⟩ := by
  decide +kernel

/-! ## What a depth and an offset tell of it -/

namespace Pairing

variable {p : Pairing} {outer : Nat}

/-- The braces without a partner, as far as they are reported: the closing ones, and the first of
the opening ones. -/
def strays (p : Pairing) : List Stray :=
  p.alone.map .closer ++ (p.waiting.getLast?.map .opener).toList

/-- If braces wait, the first of them is at offset `outer`. -/
def Outermost (p : Pairing) (outer : Nat) : Prop := ∀ i ∈ p.waiting.getLast?, i = outer

theorem strays_of_outermost (h : p.Outermost outer) :
    p.strays
      = p.alone.map .closer ++ if p.waiting.length = 0 then [] else [.opener outer] := by
  rw [strays]
  cases hp : p.waiting with
  | nil => rfl
  | cons a rest =>
      have hlast : (a :: rest).getLast? = some outer := by
        rw [List.getLast?_cons]
        refine congrArg some (h _ ?_)
        rw [hp, List.getLast?_cons]
        rfl
      rw [hlast]
      rfl

/-- One character of the scan does to the depth, the offset and the report what one offset does
to the stack. -/
theorem exists_straysFrom_cons (before : List Char) (c : Char) (cs : List Char) {escaped : Bool}
    (hesc : escapedAfter false before = escaped) (h : p.Outermost outer) :
    let q := p.look (before ++ c :: cs) before.length
    ∃ outer', q.Outermost outer'
      ∧ p.alone.map .closer
            ++ straysFrom before.length p.waiting.length outer escaped (c :: cs)
          = q.alone.map .closer
            ++ straysFrom (before.length + 1) q.waiting.length outer' (c = '\\') cs := by
  intro q
  rcases live_cases escaped c with ⟨rfl, rfl⟩ | ⟨rfl, rfl⟩ | hother
  · have hq : q = { p with waiting := before.length :: p.waiting } :=
      look_of_opener (liveAt_append_cons hesc)
    rw [hq, straysFrom_opener]
    refine ⟨_, ?_, rfl⟩
    intro i hi
    cases hp : p.waiting with
    | nil =>
        rw [hp] at hi
        exact (Option.some.inj hi).symm
    | cons a rest =>
        rw [hp, List.getLast?_cons_cons, ← hp] at hi
        exact h i hi
  · have hlive : LiveAt '}' (before ++ '}' :: cs) before.length := liveAt_append_cons hesc
    cases hp : p.waiting with
    | nil =>
        have hq : q = { p with alone := p.alone ++ [before.length] } := look_of_closer_nil hlive hp
        refine ⟨outer, by rw [hq]; exact h, ?_⟩
        rw [hq, hp, List.map_append, List.append_assoc]
        rfl
    | cons a rest =>
        have hq : q = { p with waiting := rest, pairs := p.pairs ++ [(a, before.length)] } :=
          look_of_closer_cons hlive hp
        refine ⟨outer, ?_, by rw [hq]; rfl⟩
        rw [hq]
        intro i hi
        refine h i ?_
        rw [hp, List.getLast?_cons, show rest.getLast? = some i from hi]
        rfl
  · have hq : q = p :=
      look_of_other (not_liveAt_append hesc hother (.inl rfl))
        (not_liveAt_append hesc hother (.inr rfl))
    rw [hq]
    exact ⟨outer, h, by rw [straysFrom_other hother]⟩

/-- From some offset on the scan reports what the stack leaves over. -/
theorem straysFrom_eq (before cs : List Char) {escaped : Bool}
    (hesc : escapedAfter false before = escaped) (h : p.Outermost outer) :
    p.alone.map .closer ++ straysFrom before.length p.waiting.length outer escaped cs
      = ((List.range' before.length cs.length).foldl (look (before ++ cs)) p).strays := by
  induction cs generalizing before p outer escaped with
  | nil => exact (strays_of_outermost h).symm
  | cons c cs ih =>
      obtain ⟨outer', houter, hstep⟩ := exists_straysFrom_cons before c cs hesc h
      have htext : before ++ c :: cs = (before ++ [c]) ++ cs := by simp
      have hlength : before.length + 1 = (before ++ [c]).length := by simp
      rw [hstep, List.length_cons, List.range'_succ, List.foldl_cons, hlength]
      rw [htext] at houter ⊢
      exact ih (before ++ [c]) (escapedAfter_concat _ _ _) houter

theorem strays_eq_nil_iff : p.strays = [] ↔ p.waiting = [] ∧ p.alone = [] := by
  rw [strays, List.append_eq_nil_iff, List.map_eq_nil_iff, and_comm]
  refine and_congr_left fun _ => ?_
  cases p.waiting with
  | nil => exact iff_of_true rfl rfl
  | cons a rest => exact iff_of_false (List.cons_ne_nil _ _) (List.cons_ne_nil _ _)

/-- What is left over in the end is at no end of an occurrence. -/
theorem offset_ne_of_mem_strays {cs : List Char} {n a b : Nat} (h : Matching cs n p)
    (hocc : Occurrence cs a b) (hb : b ≤ n) {s : Stray} (hs : s ∈ p.strays) :
    s.offset ≠ a ∧ s.offset ≠ b - 1 := by
  rcases List.mem_append.mp hs with hs | hs
  · obtain ⟨i, hi, rfl⟩ := List.mem_map.mp hs
    constructor
    · rintro rfl
      exact absurd (hocc.opener.eq (h.of_mem_alone hi).2) (by decide)
    · rintro rfl
      exact h.not_mem_alone_of_occurrence hocc hb hi
  · obtain ⟨i, hlast, rfl⟩ := Option.map_eq_some_iff.mp (Option.mem_toList.mp hs)
    have hi := List.mem_of_getLast? hlast
    constructor
    · rintro rfl
      exact h.not_mem_waiting_of_occurrence hocc hb hi
    · rintro rfl
      exact absurd ((h.of_mem_waiting hi).2.eq hocc.closer) (by decide)

end Pairing

/-- The stray braces are those that the stack leaves over. -/
theorem strays_eq (template : String) : strays template = (pairing template.toList).strays := by
  have hempty : Pairing.Outermost ⟨[], [], []⟩ 0 := fun i hi => absurd hi (Option.not_mem_none i)
  have hscan := Pairing.straysFrom_eq [] template.toList rfl hempty
  rw [pairing, pairingTo, List.range_eq_range']
  exact hscan

end QueryStencil.Template
