/-
# `QueryStencil.Proofs.Decimal.Spelling` — the grammar of numerals

A numeral is spelled

    [sign] (digits ['.' digits*] | '.' digits) [('e' | 'E') [sign] digits]

and stands for a sign, a coefficient and a power of ten (`Spells`).  The digits
are those of any script.

The scan goes from left to right and never takes anything back, but the parts
that may be missing overlap with what follows: `1.` goes on with digits or
ends, and a mark for a power of ten counts only with digits behind it.  That the
scan is right is said in two halves.  What it takes is spelled by the grammar
(`exists_spells_of_scan`), and if the text starts with something spelled so,
then the scan takes that or more (`scan_append_le`).  So it takes the longest
such start (`scan_cases`).
-/
import QueryStencil.Decimal.Numeral

namespace QueryStencil.Numeral

open Text

/-! ## The grammar -/

/-- Digits, and what they stand for one by one. -/
inductive DigitRun : List Char → List Nat → Prop
  | nil : DigitRun [] []
  | cons {c : Char} {d : Nat} {cs : List Char} {ds : List Nat} :
      digitValue? c = some d → DigitRun cs ds → DigitRun (c :: cs) (d :: ds)

/-- A sign or none, and whether it is a minus. -/
inductive SignPart : List Char → Bool → Prop
  | none : SignPart [] false
  | plus : SignPart ['+'] false
  | minus : SignPart ['-'] true

/-- Digits with a point or without, and the digits on its two sides. -/
inductive DecimalPart : List Char → List Nat → List Nat → Prop
  | whole {ws : List Char} {whole : List Nat} :
      DigitRun ws whole → whole ≠ [] → DecimalPart ws whole []
  | pointed {ws fs : List Char} {whole fraction : List Nat} :
      DigitRun ws whole → whole ≠ [] → DigitRun fs fraction →
      DecimalPart (ws ++ '.' :: fs) whole fraction
  | fraction {fs : List Char} {fraction : List Nat} :
      DigitRun fs fraction → fraction ≠ [] → DecimalPart ('.' :: fs) [] fraction

/-- The exponent that digits behind a sign stand for. -/
def signedExponent (negative : Bool) (digits : List Nat) : Int :=
  if negative then -(ofDigits digits : Int) else ofDigits digits

/-- A power of ten or none, and its exponent. -/
inductive PowerPart : List Char → Int → Prop
  | none : PowerPart [] 0
  | digits {mark : Char} {ss ds : List Char} {negative : Bool} {digits : List Nat} :
      mark = 'e' ∨ mark = 'E' → SignPart ss negative → DigitRun ds digits → digits ≠ [] →
      PowerPart (mark :: (ss ++ ds)) (signedExponent negative digits)

/-- A numeral in full. -/
inductive Spells : List Char → Numeral → Prop
  | mk {ss ds ps : List Char} {negative : Bool} {whole fraction : List Nat} {exponent : Int} :
      SignPart ss negative → DecimalPart ds whole fraction → PowerPart ps exponent →
      Spells (ss ++ (ds ++ ps))
        ⟨negative, ofDigits (whole ++ fraction), exponent - fraction.length⟩

/-- What spells a numeral. -/
def IsLiteral (lit : List Char) : Prop := ∃ n, Spells lit n

/-! ## Digits -/

theorem digitValue?_point : digitValue? '.' = none := by decide

theorem digitValue?_mark {c : Char} (h : c = 'e' ∨ c = 'E') : digitValue? c = none := by
  rcases h with rfl | rfl
  · decide
  · decide

/-- A character that digits with a point or without can start with. -/
def LeadsDecimal (c : Char) : Prop := c = '.' ∨ ∃ d, digitValue? c = some d

theorem LeadsDecimal.ne_sign {c : Char} (h : LeadsDecimal c) : c ≠ '+' ∧ c ≠ '-' := by
  rcases h with rfl | ⟨d, hd⟩
  · decide
  · constructor
    · rintro rfl
      exact nomatch hd
    · rintro rfl
      exact nomatch hd

theorem scanDigits_cons_of_none {c : Char} (h : digitValue? c = none) (cs : List Char) :
    scanDigits (c :: cs) = ([], c :: cs) := by
  simp only [scanDigits, h]

theorem exists_digitRun_scanDigits (cs : List Char) :
    ∃ run, cs = run ++ (scanDigits cs).2 ∧ DigitRun run (scanDigits cs).1 := by
  induction cs with
  | nil => exact ⟨[], rfl, .nil⟩
  | cons c cs ih =>
      cases hc : digitValue? c with
      | none =>
          rw [scanDigits_cons_of_none hc]
          exact ⟨[], rfl, .nil⟩
      | some d =>
          obtain ⟨run, hcs, hrun⟩ := ih
          simp only [scanDigits, hc]
          exact ⟨c :: run, congrArg (c :: ·) hcs, .cons hc hrun⟩

theorem length_scanDigits_le (cs : List Char) : (scanDigits cs).2.length ≤ cs.length := by
  obtain ⟨run, hcs, -⟩ := exists_digitRun_scanDigits cs
  exact List.IsSuffix.length_le ⟨run, hcs.symm⟩

namespace DigitRun

variable {run : List Char} {ds : List Nat}

/-- Digits are taken, and then those that follow. -/
theorem scanDigits_append (h : DigitRun run ds) (more : List Char) :
    scanDigits (run ++ more) = (ds ++ (scanDigits more).1, (scanDigits more).2) := by
  induction h with
  | nil => rfl
  | cons hc _ ih => simp only [List.cons_append, scanDigits, hc, ih]

/-- Digits are taken up to a character that is none. -/
theorem scanDigits_append_cons (h : DigitRun run ds) {c : Char} (hc : digitValue? c = none)
    (more : List Char) : scanDigits (run ++ c :: more) = (ds, c :: more) := by
  rw [h.scanDigits_append, scanDigits_cons_of_none hc, List.append_nil]

theorem exists_cons (h : DigitRun run ds) (hne : ds ≠ []) :
    ∃ c cs, run = c :: cs ∧ LeadsDecimal c := by
  cases h with
  | nil => exact absurd rfl hne
  | cons hc _ => exact ⟨_, _, rfl, .inr ⟨_, hc⟩⟩

end DigitRun

/-! ## Signs -/

theorem exists_signPart_scanSign (cs : List Char) :
    ∃ ss, cs = ss ++ (scanSign cs).2 ∧ SignPart ss (scanSign cs).1 := by
  unfold scanSign
  split
  · exact ⟨['-'], rfl, .minus⟩
  · exact ⟨['+'], rfl, .plus⟩
  · exact ⟨[], rfl, .none⟩

theorem SignPart.scanSign_append {ss : List Char} {negative : Bool} (h : SignPart ss negative)
    {c : Char} (hc : LeadsDecimal c) (more : List Char) :
    scanSign (ss ++ c :: more) = (negative, c :: more) := by
  obtain ⟨hplus, hminus⟩ := hc.ne_sign
  cases h with
  | none =>
      show scanSign (c :: more) = _
      unfold scanSign
      split
      · rename_i heq
        exact absurd (List.cons.inj heq).1 hminus
      · rename_i heq
        exact absurd (List.cons.inj heq).1 hplus
      · rfl
  | plus => rfl
  | minus => rfl

/-! ## The digits and the point -/

section Decimal

variable {cs rest : List Char} {whole fraction : List Nat}

theorem scanDecimal_of_point (h : scanDigits cs = (whole, '.' :: rest)) (hne : whole ≠ []) :
    scanDecimal cs = some (whole, (scanDigits rest).1, (scanDigits rest).2) := by
  cases whole with
  | nil => exact absurd rfl hne
  | cons => simp only [scanDecimal, h]

theorem scanDecimal_of_no_point (h : scanDigits cs = (whole, rest)) (hne : whole ≠ [])
    (hpoint : rest.head? ≠ some '.') : scanDecimal cs = some (whole, [], rest) := by
  cases whole with
  | nil => exact absurd rfl hne
  | cons =>
      unfold scanDecimal
      rw [h]
      split
      · rename_i heq
        exact nomatch heq
      · rename_i heq
        exact nomatch heq
      · rename_i heq
        cases heq
        exact absurd rfl hpoint
      · rename_i heq
        cases heq
        rfl

theorem scanDecimal_point_cons (h : scanDigits cs = (fraction, rest)) (hne : fraction ≠ []) :
    scanDecimal ('.' :: cs) = some ([], fraction, rest) := by
  cases fraction with
  | nil => exact absurd rfl hne
  | cons => simp only [scanDecimal, scanDigits_cons_of_none digitValue?_point, h]

/-- After digits, at most a point and more digits are taken. -/
theorem exists_scanDecimal_le (h : scanDigits cs = (whole, rest)) (hne : whole ≠ []) :
    ∃ whole' fraction' rest',
      scanDecimal cs = some (whole', fraction', rest') ∧ rest'.length ≤ rest.length := by
  by_cases hpoint : rest.head? = some '.'
  · obtain ⟨after, rfl⟩ : ∃ after, rest = '.' :: after := List.head?_eq_some_iff.mp hpoint
    exact ⟨_, _, _, scanDecimal_of_point h hne, Nat.le_succ_of_le (length_scanDigits_le after)⟩
  · exact ⟨_, _, _, scanDecimal_of_no_point h hne hpoint, Nat.le_refl _⟩

theorem exists_decimalPart_of_scanDecimal (h : scanDecimal cs = some (whole, fraction, rest)) :
    ∃ ds, cs = ds ++ rest ∧ DecimalPart ds whole fraction := by
  obtain ⟨ws, hcs, hws⟩ := exists_digitRun_scanDigits cs
  unfold scanDecimal at h
  split at h
  · rename_i after hdigits
    obtain ⟨fs, hafter, hfs⟩ := exists_digitRun_scanDigits after
    rw [hdigits] at hcs hws
    cases hws
    split at h
    · exact nomatch h
    · rename_i hne hfraction
      cases h
      rw [hfraction] at hafter hfs
      refine ⟨'.' :: fs, ?_, .fraction hfs ?_⟩
      · rw [hcs, hafter]
        rfl
      · rintro rfl
        exact hne rfl
  · exact nomatch h
  · rename_i after hne hdigits
    obtain ⟨fs, hafter, hfs⟩ := exists_digitRun_scanDigits after
    cases h
    rw [hdigits] at hcs hws
    refine ⟨ws ++ '.' :: fs, ?_, .pointed hws ?_ hfs⟩
    · rw [hcs, List.append_assoc, List.cons_append, ← hafter]
    · rintro rfl
      exact hne rfl
  · rename_i hne _ hdigits
    cases h
    rw [hdigits] at hcs hws
    refine ⟨ws, hcs, .whole hws ?_⟩
    rintro rfl
    exact hne rfl

end Decimal

/-- What goes on with neither a digit nor a point. -/
structure EndsDecimal (rest : List Char) : Prop where
  no_digit : ∀ c ∈ rest.head?, digitValue? c = none
  no_point : rest.head? ≠ some '.'

theorem endsDecimal_nil : EndsDecimal [] := ⟨nofun, nofun⟩

namespace DecimalPart

variable {ds : List Char} {whole fraction : List Nat}

/-- It starts with a digit or a point, so a sign in front of it is seen for itself. -/
theorem exists_cons (h : DecimalPart ds whole fraction) :
    ∃ c cs, ds = c :: cs ∧ LeadsDecimal c := by
  cases h with
  | whole hws hne => exact hws.exists_cons hne
  | pointed hws hne _ =>
      obtain ⟨c, cs, rfl, hc⟩ := hws.exists_cons hne
      exact ⟨c, _, rfl, hc⟩
  | fraction _ _ => exact ⟨'.', _, rfl, .inl rfl⟩

/-- Up to neither a digit nor a point, it is taken in full. -/
theorem scanDecimal_append (h : DecimalPart ds whole fraction) {rest : List Char}
    (hrest : EndsDecimal rest) : scanDecimal (ds ++ rest) = some (whole, fraction, rest) := by
  have hstop : scanDigits rest = ([], rest) := by
    cases rest with
    | nil => rfl
    | cons c cs => exact scanDigits_cons_of_none (hrest.no_digit c rfl) cs
  have hrun {run : List Char} {digits : List Nat} (hrun : DigitRun run digits) :
      scanDigits (run ++ rest) = (digits, rest) := by
    rw [hrun.scanDigits_append, hstop, List.append_nil]
  cases h with
  | whole hws hne => exact scanDecimal_of_no_point (hrun hws) hne hrest.no_point
  | pointed hws hne hfs =>
      rw [List.append_assoc, List.cons_append,
        scanDecimal_of_point (hws.scanDigits_append_cons digitValue?_point _) hne, hrun hfs]
  | fraction hfs hne => exact scanDecimal_point_cons (hrun hfs) hne

/-- Whatever follows, this much is taken or more. -/
theorem exists_scanDecimal_append_le (h : DecimalPart ds whole fraction) (more : List Char) :
    ∃ whole' fraction' rest,
      scanDecimal (ds ++ more) = some (whole', fraction', rest) ∧ rest.length ≤ more.length := by
  cases h with
  | whole hws hne =>
      obtain ⟨whole', fraction', rest, hscan, hle⟩ :=
        exists_scanDecimal_le (hws.scanDigits_append more) (List.append_ne_nil_of_left_ne_nil hne _)
      exact ⟨_, _, _, hscan, Nat.le_trans hle (length_scanDigits_le more)⟩
  | pointed hws hne hfs =>
      rw [List.append_assoc, List.cons_append,
        scanDecimal_of_point (hws.scanDigits_append_cons digitValue?_point _) hne,
        hfs.scanDigits_append]
      exact ⟨_, _, _, rfl, length_scanDigits_le more⟩
  | fraction hfs hne =>
      rw [List.cons_append, scanDecimal_point_cons (hfs.scanDigits_append more)
        (List.append_ne_nil_of_left_ne_nil hne _)]
      exact ⟨_, _, _, rfl, length_scanDigits_le more⟩

end DecimalPart

/-! ## The power of ten -/

theorem exists_powerPart_scanPower (cs : List Char) :
    ∃ ps, cs = ps ++ (scanPower cs).2 ∧ PowerPart ps (scanPower cs).1 := by
  unfold scanPower
  split
  · exact ⟨[], rfl, .none⟩
  · rename_i mark rest
    split
    · rename_i hmark
      obtain ⟨ss, hrest, hss⟩ := exists_signPart_scanSign rest
      obtain ⟨ds, hafter, hds⟩ := exists_digitRun_scanDigits (scanSign rest).2
      split
      · exact ⟨[], rfl, .none⟩
      · rename_i digits rest' hne hdigits
        rw [hdigits] at hafter hds
        refine ⟨mark :: (ss ++ ds), ?_, .digits (by simpa using hmark) hss hds ?_⟩
        · rw [List.cons_append, List.append_assoc, ← hafter, ← hrest]
        · rintro rfl
          exact hne rfl
    · exact ⟨[], rfl, .none⟩

theorem length_scanPower_le (cs : List Char) : (scanPower cs).2.length ≤ cs.length := by
  obtain ⟨ps, hcs, -⟩ := exists_powerPart_scanPower cs
  exact List.IsSuffix.length_le ⟨ps, hcs.symm⟩

/-- A mark is neither a digit nor a point. -/
theorem endsDecimal_mark {mark : Char} (h : mark = 'e' ∨ mark = 'E') (cs : List Char) :
    EndsDecimal (mark :: cs) := by
  constructor
  · intro c hc
    obtain rfl := Option.some.inj hc
    exact digitValue?_mark h
  · intro heq
    obtain rfl := Option.some.inj heq
    exact absurd h (by decide)

/-- A power of ten is taken, and then the digits that follow. -/
theorem scanPower_append {mark : Char} {ss ds : List Char} {negative : Bool} {digits : List Nat}
    (hmark : mark = 'e' ∨ mark = 'E') (hss : SignPart ss negative) (hds : DigitRun ds digits)
    (hne : digits ≠ []) (more : List Char) :
    scanPower (mark :: (ss ++ ds) ++ more)
      = (signedExponent negative (digits ++ (scanDigits more).1), (scanDigits more).2) := by
  have hsign : scanSign (ss ++ ds ++ more) = (negative, ds ++ more) := by
    obtain ⟨c, cs, rfl, hc⟩ := hds.exists_cons hne
    rw [List.append_assoc]
    exact hss.scanSign_append hc _
  have hdigits : scanDigits (ds ++ more) = (digits ++ (scanDigits more).1, (scanDigits more).2) :=
    hds.scanDigits_append more
  obtain ⟨d, digits, rfl⟩ := List.exists_cons_of_ne_nil hne
  simp only [List.cons_append, scanPower, hsign, hdigits, signedExponent]
  rw [if_pos (by simpa using hmark)]

/-! ## The whole numeral -/

variable {lit cs rest : List Char} {n : Numeral}

theorem exists_spells_of_scan (h : scan cs = some (n, rest)) :
    ∃ lit, cs = lit ++ rest ∧ Spells lit n := by
  obtain ⟨ss, hcs, hss⟩ := exists_signPart_scanSign cs
  unfold scan at h
  split at h
  · exact nomatch h
  · rename_i whole fraction after hdecimal
    obtain ⟨ds, hafter, hds⟩ := exists_decimalPart_of_scanDecimal hdecimal
    obtain ⟨ps, hrest, hps⟩ := exists_powerPart_scanPower after
    cases h
    refine ⟨ss ++ (ds ++ ps), ?_, .mk hss hds hps⟩
    rw [List.append_assoc, List.append_assoc, ← hrest, ← hafter, ← hcs]

/-- Whatever follows a numeral, the scan takes this much or more. -/
theorem scan_append_le (h : Spells lit n) (more : List Char) :
    ∃ n' rest, scan (lit ++ more) = some (n', rest) ∧ rest.length ≤ more.length := by
  obtain ⟨hss, hds, hps⟩ := h
  rename_i ss ds ps negative whole fraction exponent
  obtain ⟨whole', fraction', after, hdecimal, hle⟩ :
      ∃ whole' fraction' after, scanDecimal (ds ++ (ps ++ more)) = some (whole', fraction', after)
        ∧ (scanPower after).2.length ≤ more.length := by
    cases hps with
    | none =>
        obtain ⟨_, _, after, hscan, hle⟩ := hds.exists_scanDecimal_append_le more
        exact ⟨_, _, after, hscan, Nat.le_trans (length_scanPower_le after) hle⟩
    | digits hmark hss' hds' hne =>
        refine ⟨_, _, _, hds.scanDecimal_append (endsDecimal_mark hmark _), ?_⟩
        rw [scanPower_append hmark hss' hds' hne]
        exact length_scanDigits_le more
  have hsign : scanSign (ss ++ (ds ++ ps) ++ more) = (negative, ds ++ (ps ++ more)) := by
    obtain ⟨c, cs, rfl, hc⟩ := hds.exists_cons
    rw [List.append_assoc, List.append_assoc]
    exact hss.scanSign_append hc _
  simp only [scan, hsign, hdecimal]
  exact ⟨_, _, rfl, hle⟩

/-- A numeral alone is taken in full and read as the grammar says. -/
theorem scan_of_spells (h : Spells lit n) : scan lit = some (n, []) := by
  obtain ⟨hss, hds, hps⟩ := h
  rename_i ss ds ps negative whole fraction exponent
  have hsign : scanSign (ss ++ (ds ++ ps)) = (negative, ds ++ ps) := by
    obtain ⟨c, cs, rfl, hc⟩ := hds.exists_cons
    exact hss.scanSign_append hc _
  have hends : EndsDecimal ps := by
    cases hps with
    | none => exact endsDecimal_nil
    | digits hmark _ _ _ => exact endsDecimal_mark hmark _
  have hdecimal := hds.scanDecimal_append hends
  have hpower : scanPower ps = (exponent, []) := by
    cases hps with
    | none => rfl
    | digits hmark hss' hds' hne =>
        have hall := scanPower_append hmark hss' hds' hne []
        simpa only [List.append_nil, scanDigits] using hall
  simp only [scan, hsign, hdecimal, hpower]

/-- What is spelled is one numeral. -/
theorem Spells.unique {n' : Numeral} (h : Spells lit n) (h' : Spells lit n') : n = n' := by
  have hscan := scan_of_spells h
  rw [scan_of_spells h'] at hscan
  exact (Prod.mk.inj (Option.some.inj hscan)).1.symm

/-! ## The longest numeral -/

/-- The longest start of a text that has a property. -/
structure LongestStart (P : List Char → Prop) (start cs : List Char) : Prop where
  starts : start <+: cs
  holds : P start
  longest : ∀ other, other <+: cs → P other → other.length ≤ start.length

/-- There is at most one. -/
theorem LongestStart.unique {P : List Char → Prop} {start start' cs : List Char}
    (h : LongestStart P start cs) (h' : LongestStart P start' cs) : start = start' := by
  have hlength : start.length = start'.length :=
    Nat.le_antisymm (h'.longest _ h.starts h.holds) (h.longest _ h'.starts h'.holds)
  exact (List.prefix_of_prefix_length_le h.starts h'.starts (Nat.le_of_eq hlength)).eq_of_length
    hlength

/-- Where a numeral is found, it is the longest one. -/
theorem longestStart_of_scan (h : scan cs = some (n, rest)) :
    ∃ lit, cs = lit ++ rest ∧ Spells lit n ∧ LongestStart IsLiteral lit cs := by
  obtain ⟨lit, hcs, hlit⟩ := exists_spells_of_scan h
  refine ⟨lit, hcs, hlit, ⟨rest, hcs.symm⟩, ⟨n, hlit⟩, ?_⟩
  rintro other ⟨more, hmore⟩ ⟨n', hother⟩
  obtain ⟨_, rest', hscan, hle⟩ := scan_append_le hother more
  rw [hmore, h] at hscan
  cases hscan
  have hlength : (other ++ more).length = (lit ++ rest).length := by rw [hmore, hcs]
  rw [List.length_append, List.length_append] at hlength
  omega

/-- Where none is found, there is none. -/
theorem not_isLiteral_of_scan (h : scan cs = none) (hlit : lit <+: cs) : ¬ IsLiteral lit := by
  rintro ⟨n, hn⟩
  obtain ⟨more, rfl⟩ := hlit
  obtain ⟨_, _, hscan, -⟩ := scan_append_le hn more
  rw [h] at hscan
  exact nomatch hscan

end QueryStencil.Numeral
