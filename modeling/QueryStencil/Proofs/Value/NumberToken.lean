/-
# `QueryStencil.Proofs.Value.NumberToken` — the form of written numbers

A number is written as one token:

    ['-'] digits ['.' digits] ['e' ('+' | '-') digits]

with at least one digit wherever there are digits.  Every finite number is
written so (`numberToken_text`), and with it every value that is read as a number,
because what is not finite has no numeric reading (`numberToken_numeral`).  A
token has no characters but digits and four marks (`NumberToken.isNumeric`), and
none of these can be taken for query syntax: there is no quote, brace, backslash
or blank among them (`IsNumeric.inert`).
-/
import QueryStencil.Sql.Rendering
import QueryStencil.Template.Escape

namespace QueryStencil

open Template

/-! ## The grammar -/

/-- Some digits. -/
structure Digits (cs : List Char) : Prop where
  ne_nil : cs ≠ []
  isDigit : ∀ c ∈ cs, c.isDigit = true

/-- Nothing, or a point and digits. -/
inductive Fraction : List Char → Prop
  | none : Fraction []
  | digits {ds : List Char} : Digits ds → Fraction ('.' :: ds)

/-- Nothing, or a mark, a sign and digits. -/
inductive Power : List Char → Prop
  | none : Power []
  | digits {sign : Char} {ds : List Char} :
      sign = '+' ∨ sign = '-' → Digits ds → Power ('e' :: sign :: ds)

/-- Digits, a fraction and a power of ten. -/
inductive Unsigned : List Char → Prop
  | mk {whole fraction power : List Char} :
      Digits whole → Fraction fraction → Power power → Unsigned (whole ++ fraction ++ power)

/-- The form of a number, with or without a minus sign. -/
inductive NumberToken : List Char → Prop
  | plain {cs : List Char} : Unsigned cs → NumberToken cs
  | minus {cs : List Char} : Unsigned cs → NumberToken ('-' :: cs)

theorem Digits.append {as bs : List Char} (ha : Digits as) (hb : ∀ c ∈ bs, c.isDigit = true) :
    Digits (as ++ bs) := by
  constructor
  · exact List.append_ne_nil_of_left_ne_nil ha.ne_nil bs
  · intro c hc
    exact (List.mem_append.mp hc).elim (ha.isDigit c) (hb c)

theorem isDigit_of_mem_replicate {n : Nat} {c : Char} (h : c ∈ List.replicate n '0') :
    c.isDigit = true := by
  rw [List.eq_of_mem_replicate h]
  rfl

theorem Digits.replicate_append {n : Nat} {ds : List Char} (h : Digits ds) :
    Digits (List.replicate n '0' ++ ds) := by
  constructor
  · exact List.append_ne_nil_of_right_ne_nil _ h.ne_nil
  · intro c hc
    exact (List.mem_append.mp hc).elim isDigit_of_mem_replicate (h.isDigit c)

theorem Digits.take {ds : List Char} (h : Digits ds) {n : Nat} (hn : 0 < n) :
    Digits (ds.take n) := by
  constructor
  · rw [Ne, List.take_eq_nil_iff]
    rintro (hzero | hnil)
    · omega
    · exact h.ne_nil hnil
  · intro c hc
    exact h.isDigit c (List.mem_of_mem_take hc)

theorem Digits.drop {ds : List Char} (h : Digits ds) {n : Nat} (hn : n < ds.length) :
    Digits (ds.drop n) := by
  constructor
  · rw [Ne, List.drop_eq_nil_iff]
    omega
  · intro c hc
    exact h.isDigit c (List.mem_of_mem_drop hc)

/-! ## Whole numbers -/

theorem digits_repr (n : Nat) : Digits n.repr.toList := by
  rw [Nat.toList_repr]
  constructor
  · exact Nat.toDigits_ne_nil
  · intro c hc
    exact Nat.isDigit_of_mem_toDigits (by decide) (by decide) hc

theorem digits_zero : Digits ['0'] := ⟨List.cons_ne_nil _ _, by simp⟩

/-- A number without a power of ten. -/
theorem Unsigned.of_fraction {whole fraction : List Char} (hw : Digits whole)
    (hf : Fraction fraction) : Unsigned (whole ++ fraction) := by
  have hmk := Unsigned.mk hw hf .none
  rwa [List.append_nil] at hmk

theorem Digits.unsigned {ds : List Char} (h : Digits ds) : Unsigned ds := by
  have hmk := Unsigned.of_fraction h .none
  rwa [List.append_nil] at hmk

theorem toList_repr_negSucc (n : Nat) :
    (Int.negSucc n).repr.toList = '-' :: (n + 1).repr.toList := by
  rw [Int.repr, String.toList_append]
  rfl

theorem numberToken_repr (n : Int) : NumberToken n.repr.toList := by
  cases n with
  | ofNat n => exact .plain (digits_repr n).unsigned
  | negSucc n =>
      rw [toList_repr_negSucc]
      exact .minus (digits_repr (n + 1)).unsigned

theorem isDigit_of_mem_repr {n : Int} {c : Char} (h : c ∈ n.repr.toList) :
    c = '-' ∨ c.isDigit = true := by
  cases n with
  | ofNat n => exact .inr ((digits_repr n).isDigit c h)
  | negSucc n =>
      rw [toList_repr_negSucc] at h
      exact (List.mem_cons.mp h).imp_right ((digits_repr (n + 1)).isDigit c)

theorem toNat_of_isDigit {c : Char} (h : c.isDigit = true) : 48 ≤ c.toNat ∧ c.toNat ≤ 57 := by
  simp only [Char.isDigit, Bool.and_eq_true, decide_eq_true_eq] at h
  exact h

/-! ## Reals -/

namespace Layout

theorem fraction_wholeEnd : Fraction plain.wholeEnd.toList := by
  have htext : plain.wholeEnd.toList = ['.', '0'] := rfl
  rw [htext]
  exact .digits digits_zero

theorem unsigned_positional {digits : List Char} (h : Digits digits) (exponent : Int) :
    Unsigned (plain.positional digits exponent) := by
  rw [positional]
  split
  · show Unsigned (['0'] ++ '.' :: (List.replicate _ '0' ++ digits))
    exact .of_fraction digits_zero (.digits h.replicate_append)
  · by_cases hwidth : digits.length ≤ exponent.toNat + 1
    · simp only [if_pos hwidth]
      exact .of_fraction (h.append fun _ => isDigit_of_mem_replicate) fraction_wholeEnd
    · simp only [if_neg hwidth]
      exact .of_fraction (h.take (Nat.succ_pos _)) (.digits (h.drop (Nat.lt_of_not_le hwidth)))

theorem power_power (exponent : Int) : Power (plain.power exponent) := by
  refine .digits ?_ (digits_repr exponent.natAbs).replicate_append
  split
  · exact .inr rfl
  · exact .inl rfl

theorem unsigned_exponential {digits : List Char} (h : Digits digits) (exponent : Int) :
    Unsigned (plain.exponential digits exponent) := by
  refine .mk (h.take Nat.one_pos) ?_ (power_power exponent)
  split
  · exact .none
  · rename_i htail
    refine .digits ⟨fun hnil => htail ?_, fun c hc => h.isDigit c (List.mem_of_mem_drop hc)⟩
    exact List.isEmpty_iff.mpr hnil

theorem unsigned_magnitude (m : Magnitude) : Unsigned (plain.magnitude m) := by
  have hdigits := digits_repr (shortest m.steps).coefficient
  rw [magnitude]
  split
  · exact .of_fraction digits_zero fraction_wholeEnd
  · rw [decimal]
    split
    · exact unsigned_positional hdigits _
    · exact unsigned_exponential hdigits _

end Layout

theorem numberToken_binary64_text {x : Binary64} (h : x.isFinite = true) :
    NumberToken x.text.toList := by
  cases x with
  | finite negative m =>
      have hm := Layout.unsigned_magnitude m
      rw [Binary64.text, Layout.write, String.toList_ofList]
      cases negative with
      | false => exact .plain hm
      | true => exact .minus hm
  | infinite negative => exact nomatch h
  | nan => exact nomatch h

/-! ## The characters of a token -/

/-- A character that numbers are written with: an ASCII digit, or one of four marks. -/
def IsNumeric (c : Char) : Prop := c.isDigit = true ∨ c ∈ ['-', '+', '.', 'e']

theorem Digits.isNumeric {cs : List Char} (h : Digits cs) : ∀ c ∈ cs, IsNumeric c :=
  fun c hc => .inl (h.isDigit c hc)

theorem Fraction.isNumeric {cs : List Char} (h : Fraction cs) : ∀ c ∈ cs, IsNumeric c := by
  cases h with
  | none => exact fun c hc => absurd hc List.not_mem_nil
  | digits h => exact List.forall_mem_cons.mpr ⟨.inr (by simp), h.isNumeric⟩

theorem Power.isNumeric {cs : List Char} (h : Power cs) : ∀ c ∈ cs, IsNumeric c := by
  cases h with
  | none => exact fun c hc => absurd hc List.not_mem_nil
  | digits hsign h =>
      refine List.forall_mem_cons.mpr ⟨.inr (by simp), List.forall_mem_cons.mpr ⟨?_, h.isNumeric⟩⟩
      rcases hsign with rfl | rfl
      · exact .inr (by simp)
      · exact .inr (by simp)

theorem Unsigned.isNumeric {cs : List Char} (h : Unsigned cs) : ∀ c ∈ cs, IsNumeric c := by
  obtain ⟨hwhole, hfraction, hpower⟩ := h
  intro c hc
  rcases List.mem_append.mp hc with hc | hc
  · rcases List.mem_append.mp hc with hc | hc
    · exact hwhole.isNumeric c hc
    · exact hfraction.isNumeric c hc
  · exact hpower.isNumeric c hc

/-- A character that neither quotes nor delimits, nor escapes what does. -/
structure Bland (c : Char) : Prop where
  ne_quote : c ≠ '\''
  ne_backslash : c ≠ '\\'
  not_isBrace : ¬ Template.IsBrace c

instance (c : Char) : Decidable (Bland c) :=
  decidable_of_iff (c ≠ '\'' ∧ c ≠ '\\' ∧ ¬ Template.IsBrace c)
    ⟨fun h => ⟨h.1, h.2.1, h.2.2⟩, fun h => ⟨h.1, h.2, h.3⟩⟩

/-- A bland character of ASCII, which is no double quote and not blank either. -/
structure Inert (c : Char) : Prop extends Bland c where
  ascii : c.toNat < 128
  ne_doubleQuote : c ≠ '"'
  not_isBlank : Text.isBlank c = false

theorem isBlank_of_isDigit {c : Char} (h : c.isDigit = true) : Text.isBlank c = false := by
  have hapart : ∀ range ∈ Text.blankRanges, range.2 < 48 ∨ 57 < range.1 := by decide
  exact Text.inRanges_eq_false hapart (toNat_of_isDigit h)

theorem inert_of_isDigit {c : Char} (h : c.isDigit = true) : Inert c := by
  obtain ⟨hle, hlt⟩ := toNat_of_isDigit h
  refine ⟨⟨?_, ?_, ?_⟩, by omega, ?_, isBlank_of_isDigit h⟩
  · rintro rfl
    exact nomatch h
  · rintro rfl
    exact nomatch h
  · rintro (rfl | rfl)
    · exact nomatch h
    · exact nomatch h
  · rintro rfl
    exact nomatch h

/-- Nothing that a number is written with has a meaning to what is around the number. -/
theorem IsNumeric.inert {c : Char} (h : IsNumeric c) : Inert c := by
  rcases h with hdigit | hmark
  · exact inert_of_isDigit hdigit
  · simp only [List.mem_cons, List.not_mem_nil, or_false] at hmark
    rcases hmark with rfl | rfl | rfl | rfl
    all_goals exact ⟨by decide, by decide, by decide, by decide⟩

namespace NumberToken

variable {cs : List Char}

theorem isNumeric (h : NumberToken cs) : ∀ c ∈ cs, IsNumeric c := by
  cases h with
  | plain h => exact h.isNumeric
  | minus h => exact List.forall_mem_cons.mpr ⟨.inr (by simp), h.isNumeric⟩

theorem bland (h : NumberToken cs) : ∀ c ∈ cs, Bland c :=
  fun c hc => (h.isNumeric c hc).inert.toBland

theorem ne_nil (h : NumberToken cs) : cs ≠ [] := by
  cases h with
  | plain h =>
      obtain ⟨hwhole, -, -⟩ := h
      exact List.append_ne_nil_of_left_ne_nil
        (List.append_ne_nil_of_left_ne_nil hwhole.ne_nil _) _
  | minus h => exact List.cons_ne_nil _ _

end NumberToken

/-! ## Values -/

/-- The number is finite. -/
def Number.IsFinite : Number → Prop
  | .int _ => True
  | .real x => x.isFinite = true

theorem numberToken_text {n : Number} (h : n.IsFinite) : NumberToken n.text.toList := by
  cases n with
  | int n => exact numberToken_repr n
  | real x =>
      rw [Number.text]
      split
      · exact numberToken_repr _
      · exact numberToken_binary64_text h

namespace Value

theorem isFinite_of_finiteReal? {x : Binary64} {n : Number} (h : finiteReal? x = some n) :
    n.IsFinite := by
  rw [finiteReal?] at h
  split at h
  · obtain rfl := Option.some.inj h
    assumption
  · exact nomatch h

/-- What has a numeric reading is finite. -/
theorem isFinite_of_readNumber? {v : Value} {n : Number} (h : v.readNumber? = some n) :
    n.IsFinite := by
  cases v with
  | int n' =>
      obtain rfl := Option.some.inj h
      trivial
  | real x => exact isFinite_of_finiteReal? h
  | text s =>
      obtain ⟨numeral, -, hn⟩ := Option.bind_eq_some_iff.mp h
      exact isFinite_of_finiteReal? hn
  | null | bool _ | list _ | tuple _ | dict _ => exact nomatch h

/-- Whatever the value is, what stands for it as a number is a number. -/
theorem numberToken_numeral (v : Value) : NumberToken v.numeral.toList := by
  rw [numeral]
  split
  · exact numberToken_text (isFinite_of_readNumber? ‹_›)
  · exact .plain (digits_repr 0).unsigned

end Value

end QueryStencil
