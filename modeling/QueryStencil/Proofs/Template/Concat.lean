/-
# `QueryStencil.Proofs.Template.Concat` — a template after another one

A template without stray braces can be read apart from what follows it.  Three
things could cross the seam: an escape, a hole, and a pair of braces.  An
escape does not if no backslash stands at the end.  The other two would leave
a live opening brace of the first template unclosed at its end, and then it
would be a stray.

So the holes of the whole are those of the first template and, further on by
its length, those of the second (`holes_append`).  Its stray braces are those
of the second (`strays_append`).  The second template may have any mistakes.
-/
import QueryStencil.Proofs.Template.Balance

namespace QueryStencil.Template

/-! ## Further on in a text -/

/-- The hole in a text that is preceded by `n` more characters. -/
def Hole.shift (n : Nat) (h : Hole) : Hole := { h with start := n + h.start }

/-- The stray brace in a text that is preceded by `n` more characters. -/
def Stray.shift (n : Nat) : Stray → Stray
  | .closer offset => .closer (n + offset)
  | .opener offset => .opener (n + offset)

theorem holesFrom_shift (n offset : Nat) (ps : List Piece) :
    holesFrom (n + offset) ps = (holesFrom offset ps).map (Hole.shift n) := by
  fun_induction holesFrom offset ps with
  | case1 => rfl
  | case2 offset c rest ih => exact ih
  | case3 offset content rest ih =>
      rw [holesFrom, List.map_cons, ← ih, Nat.add_assoc, Nat.add_assoc, Nat.add_assoc]
      rfl

theorem straysFrom_shift (n offset depth outer : Nat) (escaped : Bool) (cs : List Char) :
    straysFrom (n + offset) depth (n + outer) escaped cs
      = (straysFrom offset depth outer escaped cs).map (Stray.shift n) := by
  induction cs generalizing offset depth outer escaped with
  | nil =>
      rw [straysFrom, straysFrom]
      split <;> rfl
  | cons c cs ih =>
      rcases live_cases escaped c with ⟨rfl, rfl⟩ | ⟨rfl, rfl⟩ | hc
      · rw [straysFrom_opener, straysFrom_opener, ← ih, Nat.add_assoc]
        split <;> rfl
      · cases depth with
        | zero =>
            rw [straysFrom_closer_zero, straysFrom_closer_zero, List.map_cons, ← ih, Nat.add_assoc]
            rfl
        | succ inner => rw [straysFrom_closer_succ, straysFrom_closer_succ, ← ih, Nat.add_assoc]
      · rw [straysFrom_other hc, straysFrom_other hc, ← ih, Nat.add_assoc]

/-- While nothing is open, it does not matter what was open last. -/
theorem straysFrom_zero (offset outer outer' : Nat) (escaped : Bool) (cs : List Char) :
    straysFrom offset 0 outer escaped cs = straysFrom offset 0 outer' escaped cs := by
  induction cs generalizing offset escaped with
  | nil => rfl
  | cons c cs ih =>
      rcases live_cases escaped c with ⟨rfl, rfl⟩ | ⟨rfl, rfl⟩ | hc
      · rfl
      · rw [straysFrom_closer_zero, straysFrom_closer_zero, ih]
      · rw [straysFrom_other hc, straysFrom_other hc, ih]

/-- Characters that are no braces change no depth. -/
theorem depthAfter_of_forall {cs : List Char} (h : ∀ c ∈ cs, ¬ IsBrace c) (depth : Nat)
    (escaped : Bool) : depthAfter depth escaped cs = depth := by
  induction cs generalizing escaped with
  | nil => rfl
  | cons c cs ih =>
      obtain ⟨hc, hcs⟩ := List.forall_mem_cons.mp h
      rw [depthAfter, depthStep_other (fun _ => hc), ih hcs]

/-! ## Stray braces -/

/-- If the first part leaves nothing open, the scan of the second starts anew. -/
theorem straysFrom_append {offset depth outer : Nat} {escaped : Bool} {as : List Char}
    (h : straysFrom offset depth outer escaped as = []) (bs : List Char) :
    straysFrom offset depth outer escaped (as ++ bs)
      = straysFrom (offset + as.length) 0 0 (escapedAfter escaped as) bs := by
  induction as generalizing offset depth outer escaped with
  | nil =>
      cases depth with
      | zero => exact straysFrom_zero _ _ _ _ _
      | succ inner => exact absurd h (List.cons_ne_nil _ _)
  | cons a as ih =>
      have hlength : offset + (a :: as).length = offset + 1 + as.length := by
        rw [List.length_cons]
        omega
      rw [List.cons_append, hlength, escapedAfter]
      rcases live_cases escaped a with ⟨rfl, rfl⟩ | ⟨rfl, rfl⟩ | ha
      · rw [straysFrom_opener] at h ⊢
        exact ih h
      · cases depth with
        | zero =>
            rw [straysFrom_closer_zero] at h
            exact absurd h (List.cons_ne_nil _ _)
        | succ inner =>
            rw [straysFrom_closer_succ] at h ⊢
            exact ih h
      · rw [straysFrom_other ha] at h ⊢
        exact ih h

/-- Characters that are no braces keep the depth as it is. -/
theorem straysFrom_append_of_forall {cs : List Char} (h : ∀ c ∈ cs, ¬ IsBrace c)
    (offset depth outer : Nat) (escaped : Bool) (rest : List Char) :
    straysFrom offset depth outer escaped (cs ++ rest)
      = straysFrom (offset + cs.length) depth outer (escapedAfter escaped cs) rest := by
  induction cs generalizing offset escaped with
  | nil => rfl
  | cons c cs ih =>
      obtain ⟨hc, hcs⟩ := List.forall_mem_cons.mp h
      rw [List.cons_append, straysFrom_other fun _ => hc, ih hcs, List.length_cons, Nat.add_assoc,
        Nat.add_comm 1]
      rfl

/-- A hole closes what it opens. -/
theorem straysFrom_hole {content : List Char} (h : ∀ c ∈ content, ¬ IsBrace c)
    (hend : escapedAfter false content = false) (offset depth outer : Nat) (rest : List Char) :
    straysFrom offset depth outer false ('{' :: (content ++ '}' :: rest))
      = straysFrom (offset + 1 + content.length + 1) depth (if depth = 0 then offset else outer)
          false rest := by
  rw [straysFrom_opener, straysFrom_append_of_forall h, hend, straysFrom_closer_succ]

theorem strays_append {s t : String} (h : strays s = [])
    (hend : escapedAfter false s.toList = false) :
    strays (s ++ t) = (strays t).map (Stray.shift s.length) := by
  have hscan := straysFrom_append (h : straysFrom 0 0 0 false s.toList = []) t.toList
  rw [hend, Nat.zero_add, String.length_toList] at hscan
  rw [strays, String.toList_append, hscan, strays, ← straysFrom_shift]
  exact straysFrom_zero _ _ _ _ _

/-! ## Pieces -/

theorem pieces_hole {cs content rest : List Char} (h : closing? false cs = some (content, rest)) :
    pieces false ('{' :: cs) = .hole content :: pieces false rest := by
  rw [pieces, if_pos ⟨rfl, rfl⟩]
  split
  · rename_i found
    obtain ⟨rfl, rfl⟩ := Prod.mk.inj (Option.some.inj (h.symm.trans found))
    rfl
  · rename_i found
    exact absurd (h.symm.trans found) (Option.some_ne_none _)

theorem pieces_open {cs : List Char} (h : closing? false cs = none) :
    pieces false ('{' :: cs) = .char '{' :: pieces false cs := by
  rw [pieces, if_pos ⟨rfl, rfl⟩]
  split
  · rename_i found
    exact absurd (found.symm.trans h) (Option.some_ne_none _)
  · rfl

theorem pieces_char {escaped : Bool} {c : Char} (h : ¬ (c = '{' ∧ escaped = false))
    (cs : List Char) : pieces escaped (c :: cs) = .char c :: pieces (c = '\\') cs := by
  rw [pieces, if_neg h]

/-- After each live opening brace there is another brace of some kind. -/
def Settled (escaped : Bool) (cs : List Char) : Prop :=
  ∀ before after, cs = before ++ '{' :: after → escapedAfter escaped before = false →
    ∃ c ∈ after, IsBrace c

theorem Settled.of_append {escaped : Bool} {as bs : List Char} (h : Settled escaped (as ++ bs)) :
    Settled (escapedAfter escaped as) bs := by
  intro before after hbs hesc
  refine h (as ++ before) after ?_ ?_
  · rw [hbs, List.append_assoc]
  · rw [escapedAfter_append, hesc]

/-- Whether a hole is closed shows at the next brace, and what follows that does not matter. -/
theorem closing?_append_eq_map {escaped : Bool} {cs : List Char} (h : ∃ c ∈ cs, IsBrace c)
    (rest : List Char) :
    closing? escaped (cs ++ rest)
      = (closing? escaped cs).map fun found => (found.1, found.2 ++ rest) := by
  induction cs generalizing escaped with
  | nil =>
      obtain ⟨c, hc, -⟩ := h
      exact absurd hc List.not_mem_nil
  | cons d cs ih =>
      rw [List.cons_append, closing?, closing?]
      by_cases hopen : d = '{'
      · rw [if_pos hopen, if_pos hopen]
        rfl
      · by_cases hclose : d = '}'
        · rw [if_neg hopen, if_neg hopen, if_pos hclose, if_pos hclose]
          cases escaped <;> rfl
        · have hlater : ∃ c ∈ cs, IsBrace c := by
            obtain ⟨c, hc, hbrace⟩ := h
            rcases List.mem_cons.mp hc with rfl | hc
            · exact absurd hbrace (not_or.mpr ⟨hopen, hclose⟩)
            · exact ⟨c, hc, hbrace⟩
          rw [if_neg hopen, if_neg hopen, if_neg hclose, if_neg hclose, ih hlater,
            Option.map_map, Option.map_map]
          rfl

theorem pieces_append {escaped : Bool} {cs : List Char} (h : Settled escaped cs)
    (rest : List Char) :
    pieces escaped (cs ++ rest) = pieces escaped cs ++ pieces (escapedAfter escaped cs) rest := by
  fun_induction pieces escaped cs with
  | case1 => rfl
  | case2 escaped c cs hc content after hf ih =>
      obtain ⟨rfl, rfl⟩ := hc
      have hbrace : ∃ c ∈ cs, IsBrace c := h [] cs rfl rfl
      have hclosed : closing? false (cs ++ rest) = some (content, after ++ rest) := by
        rw [closing?_append_eq_map hbrace, hf]
        rfl
      have hwhole : '{' :: cs = ('{' :: content ++ ['}']) ++ after := by
        simp [eq_of_closing? hf]
      have hsettled : Settled false after := by
        rw [hwhole] at h
        have := h.of_append
        rwa [escapedAfter_hole] at this
      have hflag : escapedAfter false ('{' :: cs) = escapedAfter false after := by
        rw [hwhole, escapedAfter_append, escapedAfter_hole]
      rw [hflag, List.cons_append, pieces_hole hclosed, ih hsettled]
      rfl
  | case3 escaped c cs hc hf ih =>
      obtain ⟨rfl, rfl⟩ := hc
      have hbrace : ∃ c ∈ cs, IsBrace c := h [] cs rfl rfl
      have hopen : closing? false (cs ++ rest) = none := by
        rw [closing?_append_eq_map hbrace, hf]
        rfl
      have hsettled : Settled false cs := @Settled.of_append false ['{'] cs h
      rw [List.cons_append, pieces_open hopen, ih hsettled]
      rfl
  | case4 escaped c cs hc ih =>
      have hsettled : Settled (c = '\\') cs := @Settled.of_append escaped [c] cs h
      rw [List.cons_append, pieces_char hc, ih hsettled]
      rfl

/-! ## Holes -/

theorem holesFrom_append (offset : Nat) (ps qs : List Piece) :
    holesFrom offset (ps ++ qs)
      = holesFrom offset ps ++ holesFrom (offset + (ps.flatMap Piece.source).length) qs := by
  fun_induction holesFrom offset ps with
  | case1 => rfl
  | case2 offset c rest ih =>
      rw [List.cons_append, holesFrom, ih, List.flatMap_cons, List.length_append, ← Nat.add_assoc]
      rfl
  | case3 offset content rest ih =>
      have hlength : (Piece.hole content).source.length = content.length + 2 := by
        simp [Piece.source]
      rw [List.cons_append, holesFrom, ih, List.flatMap_cons, List.length_append, hlength,
        ← Nat.add_assoc, ← Nat.add_assoc]
      rfl

/-- A live opening brace with no brace after it would be a stray. -/
theorem settled_of_strays {template : String} (h : strays template = []) :
    Settled false template.toList := by
  intro before after htext hesc
  apply Classical.byContradiction
  intro hnone
  have hplain : ∀ c ∈ after, ¬ IsBrace c := fun c hc hbrace => hnone ⟨c, hc, hbrace⟩
  have hend : depthAfter 0 false template.toList = 0 := by
    have := (closedFrom_zero h).length
    rwa [depthAt, List.take_length] at this
  rw [htext, depthAfter_append, hesc, depthAfter, depthAfter_of_forall hplain] at hend
  exact absurd hend (Nat.succ_ne_zero _)

theorem holes_append {s t : String} (h : strays s = [])
    (hend : escapedAfter false s.toList = false) :
    holes (s ++ t) = holes s ++ (holes t).map (Hole.shift s.length) := by
  have hpieces : piecesOf (s ++ t) = piecesOf s ++ piecesOf t := by
    rw [piecesOf, String.toList_append, pieces_append (settled_of_strays h), hend]
    rfl
  have hlength : ((piecesOf s).flatMap Piece.source).length = s.length := by
    rw [piecesOf, flatMap_source_pieces, String.length_toList]
  rw [holes, hpieces, holesFrom_append, hlength, Nat.zero_add, holes, holes, ← holesFrom_shift,
    Nat.add_zero]

end QueryStencil.Template
