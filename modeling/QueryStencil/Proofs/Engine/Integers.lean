/-
# `QueryStencil.Proofs.Engine.Integers` — whole numbers as numbers, texts and defaults

A whole number reaches the query as it is.  A text is rounded to binary64 on its
way, and what is 10²¹ or more is written with a power of ten.  Where neither
happens a text that stands for a whole number is written as that number, however
it is spelled (`numeral_literal`).

So up to 2⁵³ a whole number may be supplied as a number or as its decimal text, or
it may be left to the template, which then has the text as a default
(`fill_integer`).  A filling cannot tell these apart.
-/
import QueryStencil.Proofs.Decimal.Integers
import QueryStencil.Proofs.Engine.Default
import QueryStencil.Proofs.Value.LeadingNumber
import QueryStencil.Proofs.Value.NumberToken

namespace QueryStencil

open Template Numeral

/-! ## Written whole numbers -/

/-- A whole number can be a default just as it is written. -/
theorem bare_repr (n : Int) : Bare n.repr where
  trim := Text.trim_eq_self fun c hc => ((numberToken_repr n).isNumeric c hc).inert.not_isBlank
  braces c hc := ((numberToken_repr n).bland c hc).not_isBrace
  back hlast := ((numberToken_repr n).bland _ (List.mem_of_getLast? hlast)).ne_backslash rfl

theorem repr_ne_empty (n : Int) : n.repr ≠ "" :=
  fun h => (numberToken_repr n).ne_nil (String.toList_eq_nil_iff.mpr h)

namespace Value

/-- Any spelling of a whole number of 53 bits below 10²¹ is written as that number. -/
theorem numeral_literal {lit : List Char} {num : Numeral} {n m : Int} {scale : Nat}
    (hlit : Spells lit num) (hvalue : num.value = n) (hn : n = m * (twoTo scale : Nat))
    (hbits : m.natAbs ≤ twoTo 53) (hlt : n.natAbs < tenTo 21) :
    (text (String.ofList lit)).readNumber?.isSome = true
      ∧ (text (String.ofList lit)).numeral = n.repr := by
  obtain ⟨hfinite, hplain⟩ := plainInt?_of_roundsTo (roundsTo_toBinary64 num) hvalue hn hbits hlt
  have hread : (text (String.ofList lit)).readNumber? = some (.real num.toBinary64) := by
    rw [readNumber?_literal hlit, finiteReal?, if_pos hfinite]
  rw [numeral, hread]
  refine ⟨rfl, ?_⟩
  simp only [Number.text, hplain]

/-- In particular its decimal text is. -/
theorem numeral_repr {n : Int} (h : n.natAbs ≤ twoTo 53) :
    (text n.repr).readNumber?.isSome = true ∧ (text n.repr).numeral = n.repr := by
  obtain ⟨num, hspells, hvalue⟩ := exists_spells_repr n
  have hlimit : twoTo 53 < tenTo 21 := by decide
  have hn : n = n * (twoTo 0 : Nat) := (Int.mul_one n).symm
  have hread := numeral_literal hspells hvalue hn h (Nat.lt_of_le_of_lt h hlimit)
  rwa [String.ofList_toList] at hread

/-- From 10²¹ on the decimal text is not written as the number. -/
theorem numeral_repr_ne {n : Int} (h : tenTo 21 ≤ n.natAbs) : (text n.repr).numeral ≠ n.repr := by
  obtain ⟨num, hspells, hvalue⟩ := exists_spells_repr n
  have hrounds := roundsTo_toBinary64 num
  have hlarge : ((tenTo 21 : Nat) : ℚ) ≤ num.size := by
    rw [size_eq_natAbs hvalue]
    exact_mod_cast h
  have hread := readNumber?_literal hspells
  rw [String.ofList_toList, finiteReal?] at hread
  rw [numeral, hread]
  by_cases hfinite : num.toBinary64.isFinite = true
  · rw [if_pos hfinite]
    simp only [Number.text, plainInt?_of_large hrounds hlarge]
    exact text_ne_repr hfinite n
  · rw [if_neg hfinite]
    -- zero is what stands for a text without a reading, and it is not that large
    show (0 : Int).repr ≠ n.repr
    intro hzero
    obtain ⟨num', hspells', hvalue'⟩ := exists_spells_repr 0
    rw [hzero] at hspells'
    rw [hspells'.unique hspells, hvalue] at hvalue'
    have hn : n = 0 := Int.cast_injective hvalue'
    rw [hn] at h
    exact absurd h (by decide)

end Value

namespace Engine

variable {e : Engine} {p : Placeholder} {k : Kind} {values : List Value}

/-! ## Placeholders for numbers -/

/-- A value with a numeric reading is written by a number kind, and not refused. -/
theorem outcome_of_number (hkind : e.registry.find? p.kind = some k) (hk : k.shape = .number)
    {v : Value} (hv : e.valueOf values p = v) (hread : v.readNumber?.isSome = true) :
    e.outcome values p = (v.numeral, none) := by
  have hread' : v.readNumber?.isNone = false := by
    rw [Option.isNone_eq_false_iff, hread]
  have hrefusal : k.refusal? v = none := by
    rw [Kind.refusal?_of_number hk, hread']
    rfl
  have haccepted : e.rejection? p v = none := by
    rw [rejection?, hkind, Option.bind_some, hrefusal]
    exact ite_self none
  rw [outcome, hv, haccepted, rendition_of_rejection?_eq_none haccepted, Registry.render, hkind]
  exact congrArg (·, none) (Kind.render_of_number hk v)

theorem valueOf_of_getElem? {v : Value} (h : values[p.ordinal]? = some v) (hv : ¬ v.IsMissing) :
    e.valueOf values p = v := by
  rw [valueOf, h, Option.getD_some, if_neg hv]

theorem valueOf_of_isMissing (h : (values[p.ordinal]?.getD .null).IsMissing)
    (hstandIn : p.standIn ≠ "") : e.valueOf values p = .text p.standIn := by
  rw [valueOf, if_pos h, standIn, if_neg hstandIn]

section Integer

variable {n : Int} (hkind : e.registry.find? p.kind = some k) (hk : k.shape = .number)

include hkind hk in
theorem outcome_int (h : values[p.ordinal]? = some (.int n)) :
    e.outcome values p = (n.repr, none) := by
  have hv : ¬ (Value.int n).IsMissing := by
    rintro (hnull | htext)
    · exact Value.noConfusion hnull
    · exact Value.noConfusion htext
  exact outcome_of_number hkind hk (valueOf_of_getElem? h hv) rfl

include hkind hk in
/-- The decimal text of a whole number, wherever it comes from. -/
theorem outcome_repr (hn : n.natAbs ≤ twoTo 53) (h : e.valueOf values p = .text n.repr) :
    e.outcome values p = (n.repr, none) := by
  obtain ⟨hread, hnumeral⟩ := Value.numeral_repr hn
  rw [outcome_of_number hkind hk h hread, hnumeral]

end Integer

/-! ## Whole numbers in queries -/

/-- A whole number that is supplied, as a number or as its decimal text, or left to the template,
makes the same query. -/
theorem fill_integer {template : String} {n : Int} {ints texts nones : List Value}
    (hp : p ∈ (e.read template).placeholders) (hkind : e.registry.find? p.kind = some k)
    (hk : k.shape = .number) (hn : n.natAbs ≤ twoTo 53)
    (hints : ints[p.ordinal]? = some (.int n)) (htexts : texts[p.ordinal]? = some (.text n.repr))
    (hnones : (nones[p.ordinal]?.getD .null).IsMissing) (hagree : AgreeBesides p.ordinal texts ints)
    (hagree' : AgreeBesides p.ordinal nones ints) :
    e.fill template texts = e.fill template ints
      ∧ ((e.read template).IsValid →
          e.fill (giveDefault p.ordinal n.repr template) nones = e.fill template ints) := by
  have hplace := getElem?_ordinal hp
  have hint := outcome_int hkind hk hints
  constructor
  · by_cases hvalid : (e.read template).IsValid
    · have htext := valueOf_of_getElem? (e := e) htexts (not_isMissing_text (repr_ne_empty n))
      refine fill_eq_of_agreeBesides hvalid hvalid rfl (fun _ _ => rfl) hagree ?_
      rw [hplace, Option.map_some, Option.map_some, hint, outcome_repr hkind hk hn htext]
    · rw [e.fill_of_not_isValid hvalid, e.fill_of_not_isValid hvalid]
  · intro hvalid
    have hbare := bare_repr n
    obtain ⟨q, hq, hfield, hordinal⟩ := exists_placeholder_giveDefault hbare hvalid hp
    have hstandIn : q.standIn = n.repr := congrArg Field.standIn hfield
    have hkind' : e.registry.find? q.kind = some k := by
      rw [congrArg Field.kind hfield]
      exact hkind
    have hdefault : e.valueOf nones q = .text n.repr := by
      rw [valueOf_of_isMissing (hordinal ▸ hnones) (hstandIn ▸ repr_ne_empty n), hstandIn]
    refine fill_eq_of_agreeBesides (isValid_giveDefault hbare hvalid _) hvalid
      (segments_giveDefault hbare hvalid _)
      (fun _ hj => getElem?_told_giveDefault hbare hvalid _ hj) hagree' ?_
    rw [hq, hplace, Option.map_some, Option.map_some, hint, outcome_repr hkind' hk hn hdefault]

/-- Whole numbers survive as text.  A numeral whose value is a whole number of 53 bits below 10²¹
is written as that number is, whatever its spelling.  So up to 2⁵³ it makes no difference to a
query whether a whole number is supplied as a number, as its decimal text, or as the default of the
placeholder.  The bounds cannot be moved: at 2⁵³ + 1, and at 10²¹ and everywhere beyond it, the
decimal text is written in another way than the number. -/
theorem integers_survive_text :
    (∀ (k : Kind) (lit : List Char) (num : Numeral) (n m : Int) (scale : Nat),
        k.shape = .number → Spells lit num → num.value = n →
        n = m * (twoTo scale : Nat) → m.natAbs ≤ twoTo 53 → n.natAbs < tenTo 21 →
        k.render (.text (String.ofList lit)) = n.repr ∧ k.render (.int n) = n.repr)
      ∧ (∀ (e : Engine) (template : String) (p : Placeholder) (k : Kind) (n : Int)
          (ints texts nones : List Value),
          p ∈ (e.read template).placeholders → e.registry.find? p.kind = some k →
          k.shape = .number → n.natAbs ≤ twoTo 53 →
          ints[p.ordinal]? = some (.int n) → texts[p.ordinal]? = some (.text n.repr) →
          (nones[p.ordinal]?.getD .null).IsMissing →
          AgreeBesides p.ordinal texts ints → AgreeBesides p.ordinal nones ints →
          e.fill template texts = e.fill template ints
            ∧ ((e.read template).IsValid →
                e.fill (giveDefault p.ordinal n.repr template) nones = e.fill template ints))
      ∧ (∀ (k : Kind) (n : Int), k.shape = .number →
          n = (twoTo 53 : Nat) + 1 ∨ tenTo 21 ≤ n.natAbs →
          k.render (.text n.repr) ≠ k.render (.int n)) := by
  refine ⟨?_, ?_, ?_⟩
  · intro k lit num n m scale hk hlit hvalue hn hbits hlt
    rw [Kind.render_of_number hk, Kind.render_of_number hk]
    exact ⟨(Value.numeral_literal hlit hvalue hn hbits hlt).2, rfl⟩
  · intro e template p k n ints texts nones hp hkind hk hn hints htexts hnones hagree hagree'
    exact fill_integer hp hkind hk hn hints htexts hnones hagree hagree'
  · intro k n hk hbound
    rw [Kind.render_of_number hk, Kind.render_of_number hk]
    rcases hbound with rfl | hlarge
    · decide +kernel
    · exact Value.numeral_repr_ne hlarge

/-- Minus seven, spelled with more digits than it needs, supplied, and left to the template. -/
theorem integers_survive_text_seven :
    let template := "n > \x7bN:NumberInput\x7d"
    let query := standard.fill template [.int (-7)]
    Spells "-0.70e1".toList ⟨true, 70, -1⟩
      ∧ Kind.number.render (.text "-0.70e1") = "-7" ∧ query.text = "n > -7"
      ∧ standard.fill template [.text "-7"] = query
      ∧ giveDefault 0 "-7" template = "n > \x7bN:NumberInput:-7\x7d"
      ∧ standard.fill "n > \x7bN:NumberInput:-7\x7d" [] = query
      ∧ Kind.number.render (.text "9007199254740993")
        ≠ Kind.number.render (.int 9007199254740993) := by
  intro template query
  obtain ⟨hspelled, hsupplied, hsharp⟩ := integers_survive_text
  have hscan : scan "-0.70e1".toList = some (⟨true, 70, -1⟩, []) := by decide +kernel
  obtain ⟨lit, happend, hlit⟩ := exists_spells_of_scan hscan
  rw [List.append_nil] at happend
  rw [← happend] at hlit
  have hvalue : (⟨true, 70, -1⟩ : Numeral).value = ((-7 : Int) : ℚ) := by
    norm_num [value, size]
  have hseven := (hspelled .number _ _ (-7) (-7) 0 rfl hlit hvalue rfl (by decide) (by decide)).1
  rw [String.ofList_toList] at hseven
  let hole : Placeholder := ⟨⟨"N", "NumberInput", ""⟩, 0, "\x7bN:NumberInput\x7d", 4, 19⟩
  have hhole : hole ∈ (standard.read template).placeholders := by decide +kernel
  have hvalid : (standard.read template).IsValid := by decide +kernel
  have hgiven : giveDefault 0 "-7" template = "n > \x7bN:NumberInput:-7\x7d" := by decide +kernel
  have hother : ∀ values values' : List Value, values.length ≤ 1 → values'.length ≤ 1 →
      AgreeBesides 0 values values' := by
    intro values values' hle hle' j hj
    rw [List.getElem?_eq_none (by omega), List.getElem?_eq_none (by omega)]
  obtain ⟨htext, hdefault⟩ := hsupplied standard template hole .number (-7) [.int (-7)] [.text "-7"]
    [] hhole rfl rfl (by decide) rfl rfl (.inl rfl)
    (hother _ _ (by decide) (by decide)) (hother _ _ (by decide) (by decide))
  refine ⟨hlit, hseven, by decide +kernel, htext, hgiven, ?_, ?_⟩
  · rw [← hgiven]
    exact hdefault hvalid
  · exact hsharp .number 9007199254740993 rfl (.inl rfl)

end Engine

end QueryStencil
