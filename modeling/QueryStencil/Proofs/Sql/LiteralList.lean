/-
# `QueryStencil.Proofs.Sql.LiteralList` — reading literals back

A literal starts with a quote and ends with the first quote after it that is not
one of a doubled pair, so what follows decides where it ends.  `literal?` reads
one literal off the front of a text, and `literals?` one or more of them with
commas between; both give what they leave over.

They accept what quoting writes and nothing else (`literal?_eq_some_iff`,
`literals?_eq_some_iff`): the text that was read is the only one that the literal
stands for, and the literal was read to its end.
-/
import QueryStencil.Proofs.Sql.Lexer
import QueryStencil.Text.Segment

namespace QueryStencil.Sql

/-! ## The readers -/

/-- From inside of a literal: the text up to the quote that closes it, two quotes read as one,
and what follows that quote. -/
def inside? : List Char → Option (List Char × List Char)
  | [] => none
  | [c] => if c = '\'' then some ([], []) else none
  | c :: d :: cs =>
      if c = '\'' ∧ d = '\'' then (inside? cs).map fun found => ('\'' :: found.1, found.2)
      else if c = '\'' then some ([], d :: cs)
      else (inside? (d :: cs)).map fun found => (c :: found.1, found.2)

/-- The text of the literal at the start, and what follows it. -/
def literal? : List Char → Option (List Char × List Char)
  | [] => none
  | c :: cs => if c = '\'' then inside? cs else none

/-! ## One literal -/

theorem inside?_quote {cs : List Char} (h : cs.head? ≠ some '\'') :
    inside? ('\'' :: cs) = some ([], cs) := by
  cases cs with
  | nil => rfl
  | cons d cs =>
      have hd : ¬ ('\'' = '\'' ∧ d = '\'') := fun hd => h (congrArg some hd.2)
      rw [inside?, if_neg hd, if_pos rfl]

theorem inside?_quote_quote (cs : List Char) :
    inside? ('\'' :: '\'' :: cs) = (inside? cs).map fun found => ('\'' :: found.1, found.2) :=
  if_pos ⟨rfl, rfl⟩

theorem inside?_of_ne {c : Char} (h : c ≠ '\'') (cs : List Char) :
    inside? (c :: cs) = (inside? cs).map fun found => (c :: found.1, found.2) := by
  cases cs with
  | nil => exact if_neg h
  | cons d cs => rw [inside?, if_neg fun hc => h hc.1, if_neg h]

/-- What was written inside of a literal is read to the quote that closes it. -/
theorem inside?_encode (text : List Char) {rest : List Char} (h : rest.head? ≠ some '\'') :
    inside? (encode text ++ '\'' :: rest) = some (text, rest) := by
  induction text with
  | nil => exact inside?_quote h
  | cons c text ih =>
      by_cases hc : c = '\''
      · rw [encode, if_pos hc, List.cons_append, List.cons_append, inside?_quote_quote, ih, hc]
        rfl
      · rw [encode, if_neg hc, List.cons_append, inside?_of_ne hc, ih]
        rfl

theorem inside?_eq_some {cs text rest : List Char} (h : inside? cs = some (text, rest)) :
    cs = encode text ++ '\'' :: rest ∧ rest.head? ≠ some '\'' := by
  fun_induction inside? cs generalizing text with
  | case1 => cases h
  | case2 =>
      cases h
      exact ⟨rfl, Option.some_ne_none _ |>.symm⟩
  | case3 => cases h
  | case4 c d cs hpair ih =>
      obtain ⟨⟨inner, rest⟩, hfound, heq⟩ := Option.map_eq_some_iff.mp h
      obtain ⟨rfl, rfl⟩ := Prod.mk.inj heq
      obtain ⟨rfl, hrest⟩ := ih hfound
      rw [encode, if_pos rfl, hpair.1, hpair.2]
      exact ⟨rfl, hrest⟩
  | case5 d cs hpair =>
      cases h
      exact ⟨rfl, fun hd => hpair ⟨rfl, Option.some.inj hd⟩⟩
  | case6 c d cs hpair hc ih =>
      obtain ⟨⟨inner, rest⟩, hfound, heq⟩ := Option.map_eq_some_iff.mp h
      obtain ⟨rfl, rfl⟩ := Prod.mk.inj heq
      obtain ⟨hcs, hrest⟩ := ih hfound
      rw [encode, if_neg hc, hcs]
      exact ⟨rfl, hrest⟩

/-- The literal at the start of a text is the one for the text that is read, if no quote follows
it; a quote would be one of a doubled pair. -/
theorem literal?_eq_some_iff {cs text rest : List Char} :
    literal? cs = some (text, rest) ↔ cs = quoted text ++ rest ∧ rest.head? ≠ some '\'' := by
  have hquoted : quoted text ++ rest = '\'' :: (encode text ++ '\'' :: rest) := by
    simp [quoted]
  rw [hquoted]
  constructor
  · intro h
    cases cs with
    | nil => cases h
    | cons c cs =>
        rw [literal?] at h
        split at h
        · rename_i hc
          obtain ⟨rfl, hrest⟩ := inside?_eq_some h
          exact ⟨by rw [hc], hrest⟩
        · cases h
  · rintro ⟨rfl, hrest⟩
    rw [literal?, if_pos rfl, inside?_encode text hrest]

theorem length_lt_of_literal? {cs text rest : List Char} (h : literal? cs = some (text, rest)) :
    rest.length < cs.length := by
  rw [(literal?_eq_some_iff.mp h).1, quoted]
  simp
  omega

/-! ## Several literals -/

/-- The texts of the literals at the start, with a comma between any two of them, and what
follows the last one.  After a comma there has to be one more. -/
def literals? (cs : List Char) : Option (List (List Char) × List Char) :=
  match _first : literal? cs with
  | none => none
  | some (text, []) => some ([text], [])
  | some (text, c :: rest) =>
      if c = ',' then (literals? rest).map fun found => (text :: found.1, found.2)
      else some ([text], c :: rest)
termination_by cs.length
decreasing_by
  have hlength := length_lt_of_literal? _first
  rw [List.length_cons] at hlength
  omega

/-- Texts as literals with commas between them. -/
def quotedList (texts : List (List Char)) : List Char := Text.joinOn ',' (texts.map quoted)

theorem quotedList_singleton (text : List Char) : quotedList [text] = quoted text := rfl

theorem quotedList_cons_cons (text next : List Char) (texts : List (List Char)) :
    quotedList (text :: next :: texts) = quoted text ++ ',' :: quotedList (next :: texts) := rfl

/-- Neither one more literal nor a doubled quote can start here. -/
structure Ends (rest : List Char) : Prop where
  quote : rest.head? ≠ some '\''
  comma : rest.head? ≠ some ','

instance (rest : List Char) : Decidable (Ends rest) :=
  decidable_of_iff (rest.head? ≠ some '\'' ∧ rest.head? ≠ some ',')
    ⟨fun h => ⟨h.1, h.2⟩, fun h => ⟨h.1, h.2⟩⟩

/-- Literals that were written with commas between them are read to the end of the last one. -/
theorem literals?_quotedList {texts : List (List Char)} (hne : texts ≠ []) {rest : List Char}
    (h : Ends rest) : literals? (quotedList texts ++ rest) = some (texts, rest) := by
  induction texts with
  | nil => exact absurd rfl hne
  | cons text texts ih =>
      cases texts with
      | nil =>
          have hfirst : literal? (quoted text ++ rest) = some (text, rest) :=
            literal?_eq_some_iff.mpr ⟨rfl, h.quote⟩
          rw [quotedList_singleton, literals?, hfirst]
          cases rest with
          | nil => rfl
          | cons c rest => exact if_neg fun hc => h.comma (congrArg some hc)
      | cons next texts =>
          have hfirst : literal? (quoted text ++ ',' :: (quotedList (next :: texts) ++ rest))
              = some (text, ',' :: (quotedList (next :: texts) ++ rest)) :=
            literal?_eq_some_iff.mpr ⟨rfl, by simp⟩
          rw [quotedList_cons_cons, List.append_assoc, List.cons_append, literals?, hfirst]
          simp only [if_true, ih (List.cons_ne_nil _ _), Option.map_some]

theorem literals?_eq_some {cs rest : List Char} {texts : List (List Char)}
    (h : literals? cs = some (texts, rest)) :
    texts ≠ [] ∧ cs = quotedList texts ++ rest ∧ Ends rest := by
  fun_induction literals? cs generalizing texts with
  | case1 => cases h
  | case2 cs text hfirst =>
      cases h
      obtain ⟨hcs, hrest⟩ := literal?_eq_some_iff.mp hfirst
      exact ⟨List.cons_ne_nil _ _, hcs, hrest, by simp⟩
  | case3 cs text found hfirst ih =>
      obtain ⟨⟨others, rest⟩, hfound, heq⟩ := Option.map_eq_some_iff.mp h
      obtain ⟨rfl, rfl⟩ := Prod.mk.inj heq
      obtain ⟨hne, rfl, hrest⟩ := ih hfound
      obtain ⟨next, others, rfl⟩ := List.exists_cons_of_ne_nil hne
      refine ⟨List.cons_ne_nil _ _, ?_, hrest⟩
      rw [(literal?_eq_some_iff.mp hfirst).1, quotedList_cons_cons, List.append_assoc]
      rfl
  | case4 cs text c found hfirst hc =>
      cases h
      obtain ⟨hcs, hrest⟩ := literal?_eq_some_iff.mp hfirst
      exact ⟨List.cons_ne_nil _ _, hcs, hrest, fun hcomma => hc (Option.some.inj hcomma)⟩

/-- The literals at the start of a text are those for the texts that are read, if neither a quote
nor a comma follows. -/
theorem literals?_eq_some_iff {cs rest : List Char} {texts : List (List Char)} :
    literals? cs = some (texts, rest) ↔ texts ≠ [] ∧ cs = quotedList texts ++ rest ∧ Ends rest := by
  constructor
  · exact literals?_eq_some
  · rintro ⟨hne, rfl, hrest⟩
    exact literals?_quotedList hne hrest

end QueryStencil.Sql
