/-
# `QueryStencil.Proofs.Sql.Lexer` — which part of a query is inside of literals

A quote opens a literal, a doubled quote in a literal stays in it, and a single
one closes it.  So after a quote in a literal the lexer has to see one more
character to know, and `Mode.quote` is that state; a query that ends in it
ends outside.

The `outline` of a query is what is left of it when every literal is reduced
to one mark.  Two texts are `Alike` if no lexer that comes from outside can
tell them apart by the outline, or by where it ends.  All literals are alike
(`alike_quoted`): this is what quoting is for.
-/
import QueryStencil.Sql.Literal

namespace QueryStencil.Sql

/-! ## The lexer -/

/-- Where a lexer stands: outside, inside of a literal, or right after a quote
inside of one. -/
inductive Mode where
  | outside
  | inside
  | quote
deriving DecidableEq

namespace Mode

/-- The mode after one more character. -/
def next : Mode → Char → Mode
  | .outside, c => if c = '\'' then .inside else .outside
  | .inside, c => if c = '\'' then .quote else .inside
  | .quote, c => if c = '\'' then .inside else .outside

/-- What one more character adds to the outline. -/
def shown : Mode → Char → List (Option Char)
  | .outside, c => if c = '\'' then [none] else [some c]
  | .inside, _ => []
  | .quote, c => if c = '\'' then [] else [some c]

/-- The mode after a text. -/
def after (m : Mode) (cs : List Char) : Mode := cs.foldl next m

/-- What a text adds to the outline. -/
def outline (m : Mode) : List Char → List (Option Char)
  | [] => []
  | c :: cs => m.shown c ++ (m.next c).outline cs

theorem after_cons (m : Mode) (c : Char) (cs : List Char) :
    m.after (c :: cs) = (m.next c).after cs := rfl

theorem outline_cons (m : Mode) (c : Char) (cs : List Char) :
    m.outline (c :: cs) = m.shown c ++ (m.next c).outline cs := rfl

theorem after_append (m : Mode) (as bs : List Char) :
    m.after (as ++ bs) = (m.after as).after bs := List.foldl_append

theorem outline_append (m : Mode) (as bs : List Char) :
    m.outline (as ++ bs) = m.outline as ++ (m.after as).outline bs := by
  induction as generalizing m with
  | nil => rfl
  | cons a as ih =>
      rw [List.cons_append, outline_cons, ih, outline_cons, List.append_assoc]
      rfl

theorem next_quote {m : Mode} (h : m ≠ .inside) : m.next '\'' = .inside := by
  cases m with
  | outside => rfl
  | inside => exact absurd rfl h
  | quote => rfl

theorem next_of_ne {m : Mode} {c : Char} (h : m ≠ .inside) (hc : c ≠ '\'') :
    m.next c = .outside := by
  cases m with
  | outside => exact if_neg hc
  | inside => exact absurd rfl h
  | quote => exact if_neg hc

end Mode

/-- The query with a mark in place of each literal. -/
def outline (query : String) : List (Option Char) := Mode.outside.outline query.toList

/-- The text of a query that lies outside of its literals. -/
def textOutside (query : String) : String := String.ofList ((outline query).filterMap id)

/-- No literal is left open at the end of the query. -/
def EndsOutside (query : String) : Prop := Mode.outside.after query.toList ≠ .inside

instance (query : String) : Decidable (EndsOutside query) := inferInstanceAs (Decidable (_ ≠ _))

example : textOutside "a = 'it''s' AND b = 'x''y'" = "a =  AND b = " := by decide +kernel

/-! ## Texts that a lexer from outside takes for each other -/

/-- From outside, both texts lead outside, to the same mode and with the same outline. -/
structure Alike (as bs : List Char) : Prop where
  closed : ∀ m : Mode, m ≠ .inside → m.after as ≠ .inside
  after_eq : ∀ m : Mode, m ≠ .inside → m.after as = m.after bs
  outline_eq : ∀ m : Mode, m ≠ .inside → m.outline as = m.outline bs

theorem Alike.append {as bs cs ds : List Char} (h : Alike as bs) (h' : Alike cs ds) :
    Alike (as ++ cs) (bs ++ ds) := by
  constructor
  · intro m hm
    rw [Mode.after_append]
    exact h'.closed _ (h.closed m hm)
  · intro m hm
    rw [Mode.after_append, Mode.after_append, ← h.after_eq m hm]
    exact h'.after_eq _ (h.closed m hm)
  · intro m hm
    rw [Mode.outline_append, Mode.outline_append, ← h.after_eq m hm, ← h.outline_eq m hm,
      h'.outline_eq _ (h.closed m hm)]

/-- A text without quotes is alike itself. -/
theorem Alike.of_not_mem {cs : List Char} (h : '\'' ∉ cs) : Alike cs cs := by
  refine ⟨?_, fun _ _ => rfl, fun _ _ => rfl⟩
  intro m hm
  induction cs generalizing m with
  | nil => exact hm
  | cons c cs ih =>
      obtain ⟨hc, hcs⟩ := List.ne_and_not_mem_of_not_mem_cons h
      rw [Mode.after_cons, Mode.next_of_ne hm (Ne.symm hc)]
      exact ih hcs .outside Mode.noConfusion

/-! ## Literals -/

/-- The inside of a literal leads nowhere and shows nothing. -/
theorem inside_encode (cs : List Char) :
    Mode.inside.after (encode cs) = .inside ∧ Mode.inside.outline (encode cs) = [] := by
  induction cs with
  | nil => exact ⟨rfl, rfl⟩
  | cons c cs ih =>
      by_cases hc : c = '\''
      · rw [encode, if_pos hc]
        exact ih
      · have hstay : Mode.inside.next c = .inside := if_neg hc
        rw [encode, if_neg hc, Mode.after_cons, Mode.outline_cons, hstay]
        exact ih

/-- The text that the inside of a literal stands for: one quote for two. -/
def decode : List Char → List Char
  | [] => []
  | [c] => [c]
  | c :: d :: cs => if c = '\'' ∧ d = '\'' then '\'' :: decode cs else c :: decode (d :: cs)

theorem decode_cons_of_ne {c : Char} (h : c ≠ '\'') (cs : List Char) :
    decode (c :: cs) = c :: decode cs := by
  cases cs with
  | nil => rfl
  | cons d cs => exact if_neg fun hc => h hc.1

theorem decode_encode (cs : List Char) : decode (encode cs) = cs := by
  induction cs with
  | nil => rfl
  | cons c cs ih =>
      rw [encode]
      split
      · rename_i hc
        rw [decode, if_pos ⟨rfl, rfl⟩, ih, hc]
      · rename_i hc
        rw [decode_cons_of_ne hc, ih]

/-- The characters of the literal for a text. -/
def quoted (cs : List Char) : List Char := '\'' :: (encode cs ++ ['\''])

theorem toList_literal (s : String) : (literal s).toList = quoted s.toList :=
  String.toList_ofList

/-- Different texts have different literals. -/
theorem quoted_injective {as bs : List Char} (h : quoted as = quoted bs) : as = bs := by
  have hinside : encode as = encode bs := List.append_cancel_right (List.cons.inj h).2
  rw [← decode_encode as, hinside, decode_encode]

theorem after_quoted {m : Mode} (h : m ≠ .inside) (cs : List Char) :
    m.after (quoted cs) = .quote := by
  rw [quoted, Mode.after_cons, Mode.next_quote h, Mode.after_append, (inside_encode cs).1]
  rfl

theorem outline_quoted {m : Mode} (h : m ≠ .inside) (cs : List Char) :
    m.outline (quoted cs) = m.shown '\'' := by
  rw [quoted, Mode.outline_cons, Mode.next_quote h, Mode.outline_append, (inside_encode cs).1,
    (inside_encode cs).2]
  exact List.append_nil _

/-- All literals are alike. -/
theorem alike_quoted (cs ds : List Char) : Alike (quoted cs) (quoted ds) := by
  constructor
  · intro m hm
    rw [after_quoted hm]
    exact Mode.noConfusion
  · intro m hm
    rw [after_quoted hm, after_quoted hm]
  · intro m hm
    rw [outline_quoted hm, outline_quoted hm]

end QueryStencil.Sql
