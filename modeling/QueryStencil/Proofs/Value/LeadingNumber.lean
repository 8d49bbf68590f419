/-
# `QueryStencil.Proofs.Value.LeadingNumber` — the number that a text starts with

A text is read by the longest numeral at its start, white space in front of it
left out, and the reading is what the value of that numeral rounds to.  Nothing
else of the text has an influence: neither the white space nor what stands
behind the numeral, even where that looks as if the numeral went on
(`readNumber?_text_longest`).
-/
import QueryStencil.Kind.Builtin
import QueryStencil.Proofs.Decimal.Spelling
import QueryStencil.Proofs.Decimal.Value

namespace QueryStencil

open Text Numeral

/-! ## White space -/

/-- No digit of any script is white space. -/
theorem isWhiteSpace_of_digitValue? {c : Char} {d : Nat} (h : digitValue? c = some d) :
    isWhiteSpace c = false := by
  have hapart : ∀ start ∈ digitZeros, ∀ range ∈ whiteSpaceRanges,
      range.2 < start ∨ start + 9 < range.1 := by decide +kernel
  obtain ⟨start, hstart, hle, hlt⟩ := exists_run_of_placeInRun h
  exact inRanges_eq_false (hapart start hstart) ⟨hle, Nat.le_of_lt_succ hlt⟩

/-- The information separators are no white space. -/
theorem isWhiteSpace_separator {c : Char} (h : 0x1C ≤ c.toNat ∧ c.toNat ≤ 0x1F) :
    isWhiteSpace c = false := by
  have hapart : ∀ range ∈ whiteSpaceRanges, range.2 < 0x1C ∨ 0x1F < range.1 := by decide
  exact inRanges_eq_false hapart h

/-- A numeral does not start with white space. -/
theorem Numeral.Spells.dropWhile_isWhiteSpace {lit : List Char} {n : Numeral} (h : Spells lit n) :
    lit.dropWhile isWhiteSpace = lit := by
  obtain ⟨c, cs, rfl, hc⟩ : ∃ c cs, lit = c :: cs ∧ isWhiteSpace c = false := by
    obtain ⟨hss, hds, -⟩ := h
    cases hss with
    | plus => exact ⟨'+', _, rfl, by decide⟩
    | minus => exact ⟨'-', _, rfl, by decide⟩
    | none =>
        obtain ⟨c, cs, rfl, hpoint | ⟨d, hd⟩⟩ := hds.exists_cons
        · exact ⟨c, _, rfl, by rw [hpoint]; decide⟩
        · exact ⟨c, _, rfl, isWhiteSpace_of_digitValue? hd⟩
  rw [List.dropWhile_cons_of_neg (by rw [hc]; decide)]

namespace Value

/-! ## The reading of a text -/

theorem readNumber?_text_of_scan {s : String} {n : Numeral} {rest : List Char}
    (h : scan (s.toList.dropWhile isWhiteSpace) = some (n, rest)) :
    (text s).readNumber? = finiteReal? n.toBinary64 := by
  simp only [readNumber?, leadingNumeral?, h, Option.map_some, Option.bind_some]

theorem readNumber?_text_of_scan_none {s : String}
    (h : scan (s.toList.dropWhile isWhiteSpace) = none) : (text s).readNumber? = none := by
  simp only [readNumber?, leadingNumeral?, h, Option.map_none, Option.bind_none]

/-- A numeral alone is read by its value. -/
theorem readNumber?_literal {lit : List Char} {n : Numeral} (h : Spells lit n) :
    (text (String.ofList lit)).readNumber? = finiteReal? n.toBinary64 := by
  apply readNumber?_text_of_scan
  rw [String.toList_ofList, h.dropWhile_isWhiteSpace, scan_of_spells h]

/-- What a numeral rounds to is a number unless it is infinite. -/
theorem finiteReal?_eq_none_iff {n : Numeral} {x : Binary64} (h : n.RoundsTo x) :
    finiteReal? x = none ↔ ∃ negative, x = .infinite negative := by
  cases h with
  | finite m _ => exact ⟨nofun, nofun⟩
  | infinite _ _ _ => exact ⟨fun _ => ⟨_, rfl⟩, fun _ => rfl⟩

theorem eq_real_of_finiteReal? {x : Binary64} {number : Number} (h : finiteReal? x = some number) :
    number = .real x := by
  simp only [finiteReal?] at h
  split at h
  · exact (Option.some.inj h).symm
  · exact nomatch h

end Value

namespace Kind

variable {k : Kind} {v w : Value}

theorem render_of_number (hk : k.shape = .number) (v : Value) : k.render v = v.numeral := by
  rw [hk]
  rfl

theorem refusal?_of_number (hk : k.shape = .number) (v : Value) :
    k.refusal? v = if v.readNumber?.isNone then some .notNumber else none := by
  rw [hk]
  rfl

/-- A number kind sees nothing of a value but its numeric reading. -/
theorem number_congr (hk : k.shape = .number) (h : v.readNumber? = w.readNumber?) :
    k.render v = k.render w ∧ k.refusal? v = k.refusal? w := by
  rw [render_of_number hk, render_of_number hk, refusal?_of_number hk, refusal?_of_number hk,
    Value.numeral, Value.numeral, h]
  exact ⟨rfl, rfl⟩

theorem number_of_readNumber?_none (hk : k.shape = .number) (h : v.readNumber? = none) :
    k.render v = "0" ∧ k.refusal? v = some .notNumber := by
  rw [render_of_number hk, refusal?_of_number hk, Value.numeral, h]
  exact ⟨rfl, rfl⟩

end Kind

namespace Value

/-- A text is read by the longest numeral at the start of what its white space leaves.  Without
one it has no numeric reading.  With one its reading is that of the numeral alone, which is what
the numeral rounds to unless that is infinite, and a number kind writes and refuses the text as it
does the numeral alone. -/
theorem readNumber?_text_longest (s : String) (k : Kind) (hk : k.shape = .number) :
    (∀ c : Char, 0x1C ≤ c.toNat ∧ c.toNat ≤ 0x1F → isWhiteSpace c = false)
      ∧ (((∀ lit, lit <+: s.toList.dropWhile isWhiteSpace → ¬ IsLiteral lit)
            ∧ (text s).readNumber? = none
            ∧ k.render (text s) = "0" ∧ k.refusal? (text s) = some .notNumber)
          ∨ ∃ lit n x, LongestStart IsLiteral lit (s.toList.dropWhile isWhiteSpace)
            ∧ Spells lit n ∧ n.RoundsTo x ∧ (∀ y, n.RoundsTo y → y = x)
            ∧ (text s).readNumber? = (text (String.ofList lit)).readNumber?
            ∧ ((text s).readNumber? = none ↔ ∃ negative, x = .infinite negative)
            ∧ (∀ number, (text s).readNumber? = some number → number = .real x)
            ∧ k.render (text s) = k.render (text (String.ofList lit))
            ∧ k.refusal? (text s) = k.refusal? (text (String.ofList lit))) := by
  refine ⟨fun c => isWhiteSpace_separator, ?_⟩
  cases hscan : scan (s.toList.dropWhile isWhiteSpace) with
  | none =>
      have hread := readNumber?_text_of_scan_none hscan
      exact .inl ⟨fun _ => not_isLiteral_of_scan hscan, hread,
        Kind.number_of_readNumber?_none hk hread⟩
  | some found =>
      obtain ⟨n, rest⟩ := found
      obtain ⟨lit, -, hlit, hlongest⟩ := longestStart_of_scan hscan
      have hread := readNumber?_text_of_scan hscan
      have hsame : (text s).readNumber? = (text (String.ofList lit)).readNumber? := by
        rw [hread, readNumber?_literal hlit]
      have hrounds := roundsTo_toBinary64 n
      refine .inr ⟨lit, n, n.toBinary64, hlongest, hlit, hrounds, fun y hy => hy.unique hrounds,
        hsame, ?_, ?_, Kind.number_congr hk hsame⟩
      · rw [hread]
        exact finiteReal?_eq_none_iff hrounds
      · rw [hread]
        exact fun _ => eq_real_of_finiteReal?

/-- A mark and a sign without digits do not belong to the numeral in front of them. -/
theorem readNumber?_text_longest_mark :
    LongestStart IsLiteral "12".toList "12e+px".toList
      ∧ Kind.number.render (text " 12e+px") = Kind.number.render (text "12") := by
  have hrest : " 12e+px".toList.dropWhile isWhiteSpace = "12e+px".toList := by decide +kernel
  have hscan : scan "12e+px".toList = some (⟨false, 12, 0⟩, "e+px".toList) := by decide +kernel
  obtain ⟨lit, happend, hspells, hlongest⟩ := longestStart_of_scan hscan
  obtain rfl : "12".toList = lit := List.append_cancel_right happend
  refine ⟨hlongest, ?_⟩
  rcases (readNumber?_text_longest " 12e+px" Kind.number rfl).2 with ⟨hnone, -⟩ | hsome
  · rw [hrest] at hnone
    exact absurd hlongest.holds (hnone _ hlongest.starts)
  · obtain ⟨lit, n, x, hlit, -, -, -, -, -, -, hrender, -⟩ := hsome
    rw [hrest] at hlit
    rw [hlit.unique hlongest, String.ofList_toList] at hrender
    exact hrender

end Value

end QueryStencil
