/-
# `QueryStencil.Proofs.Kind.Interchange` — which written values can stand for each other

Escapes are undone in the filled text as a whole, so what matters about a
written value is what is left of it then.  Two texts are `Interchangeable` if
both keep to themselves while escapes are undone, and are alike afterwards.

Free text writes one literal, whatever the value is, so any two values are
interchangeable for it.  Numbers and tags show in the outline of a query, but
what they write is still closed: it is interchangeable with itself, and no
literal is left open by it.
-/
import QueryStencil.Kind.Builtin
import QueryStencil.Proofs.Sql.Lexer
import QueryStencil.Proofs.Template.Unescape
import QueryStencil.Proofs.Value.NumberToken

namespace QueryStencil

open Template

/-- Either text can stand where the other one stands, in a text that is yet to be unescaped. -/
structure Interchangeable (as bs : List Char) : Prop where
  sealed_left : Sealed as
  sealed_right : Sealed bs
  alike : Sql.Alike (unescape as) (unescape bs)

theorem Interchangeable.append {as bs cs ds : List Char} (h : Interchangeable as bs)
    (h' : Interchangeable cs ds) : Interchangeable (as ++ cs) (bs ++ ds) := by
  refine ⟨h.sealed_left.append h'.sealed_left, h.sealed_right.append h'.sealed_right, ?_⟩
  rw [unescape_append (.inl h.sealed_left.back), unescape_append (.inl h.sealed_right.back)]
  exact h.alike.append h'.alike

/-- A text of bland characters stands for itself. -/
theorem interchangeable_of_bland {cs : List Char} (hne : cs ≠ []) (h : ∀ c ∈ cs, Bland c) :
    Interchangeable cs cs := by
  have hsealed : Sealed cs :=
    .of_forall hne fun c hc => ⟨(h c hc).ne_backslash, (h c hc).not_isBrace⟩
  refine ⟨hsealed, hsealed, .of_not_mem ?_⟩
  intro hquote
  exact (h _ (mem_of_mem_unescape hquote)).ne_quote rfl

/-! ## Literals -/

/-- Doubled quotes do not change whether a brace comes first. -/
theorem ledByBrace_encode (cs : List Char) : LedByBrace (Sql.encode cs) ↔ LedByBrace cs := by
  cases cs with
  | nil => exact Iff.rfl
  | cons c cs =>
      rw [Sql.encode]
      split
      · rename_i hc
        rw [hc]
        exact Iff.rfl
      · exact Iff.rfl

/-- Quotes are doubled and escapes taken away in either order. -/
theorem unescape_encode (cs : List Char) :
    unescape (Sql.encode cs) = Sql.encode (unescape cs) := by
  induction cs with
  | nil => rfl
  | cons c cs ih =>
      by_cases hc : c = '\''
      · subst hc
        rw [Sql.encode, if_pos rfl, unescape_cons_of_ne (by decide),
          unescape_cons_of_ne (by decide), unescape_cons_of_ne (by decide), ih, Sql.encode, if_pos rfl]
      · rw [Sql.encode, if_neg hc, unescape_cons, unescape_cons, ih]
        simp only [ledByBrace_encode]
        split
        · rfl
        · rw [Sql.encode, if_neg hc]

theorem sealed_quoted (cs : List Char) : Sealed (Sql.quoted cs) := by
  refine ⟨List.cons_ne_nil _ _, ?_, ?_⟩
  · show ¬ IsBrace '\''
    decide
  · rw [Sql.quoted, ← List.cons_append, escapedAfter_concat]
    rfl

/-- A literal is still a literal when escapes are taken away. -/
theorem unescape_quoted (cs : List Char) :
    unescape (Sql.quoted cs) = Sql.quoted (unescape cs) := by
  have hclose : ¬ LedByBrace ['\''] := by decide
  rw [Sql.quoted, unescape_cons_of_ne (by decide), unescape_append (.inr hclose), unescape_encode]
  rfl

theorem interchangeable_quoted (cs ds : List Char) :
    Interchangeable (Sql.quoted cs) (Sql.quoted ds) := by
  refine ⟨sealed_quoted cs, sealed_quoted ds, ?_⟩
  rw [unescape_quoted, unescape_quoted]
  exact Sql.alike_quoted _ _

theorem interchangeable_literal (s t : String) :
    Interchangeable (Sql.literal s).toList (Sql.literal t).toList := by
  rw [Sql.toList_literal, Sql.toList_literal]
  exact interchangeable_quoted _ _

/-! ## Values -/

theorem interchangeable_numeral (v : Value) :
    Interchangeable v.numeral.toList v.numeral.toList :=
  have h := v.numberToken_numeral
  interchangeable_of_bland h.ne_nil h.bland

theorem tagLiterals_cons (tag : String) (tags : List String) :
    Value.tagLiterals (tag :: tags) = ",".intercalate ((tag :: tags).map Sql.literal) := rfl

theorem tagLiterals_singleton (tag : String) : Value.tagLiterals [tag] = Sql.literal tag := by
  rw [tagLiterals_cons, List.map_singleton, String.intercalate_singleton]

theorem toList_tagLiterals_cons_cons (tag tag' : String) (tags : List String) :
    (Value.tagLiterals (tag :: tag' :: tags)).toList
      = (Sql.literal tag).toList ++ [','] ++ (Value.tagLiterals (tag' :: tags)).toList := by
  rw [tagLiterals_cons, tagLiterals_cons, List.map_cons, List.map_cons,
    String.intercalate_cons_cons, String.toList_append, String.toList_append]
  rfl

theorem interchangeable_tagLiterals (tags : List String) :
    Interchangeable (Value.tagLiterals tags).toList (Value.tagLiterals tags).toList := by
  have hbland : ∀ c ∈ [','], Bland c := by
    intro c hc
    obtain rfl := List.mem_singleton.mp hc
    decide
  have hcomma : Interchangeable [','] [','] := interchangeable_of_bland (by simp) hbland
  induction tags with
  | nil => exact interchangeable_literal "" ""
  | cons tag tags ih =>
      cases tags with
      | nil =>
          rw [tagLiterals_singleton]
          exact interchangeable_literal tag tag
      | cons tag' tags =>
          rw [toList_tagLiterals_cons_cons]
          exact ((interchangeable_literal tag tag).append hcomma).append ih

/-! ## Kinds -/

/-- One of the shapes that come with the library. -/
inductive Shape.IsBuiltin : Shape → Prop where
  | text : IsBuiltin .text
  | choice (options : List String) : IsBuiltin (.choice options)
  | number : IsBuiltin .number
  | tags : IsBuiltin .tags

/-- A shape of the library that takes any value as free text. -/
inductive Shape.IsTextual : Shape → Prop where
  | text : IsTextual .text
  | choice (options : List String) : IsTextual (.choice options)

namespace Shape

/-- Free text refuses nothing. -/
theorem IsTextual.refusal?_eq_none {s : Shape} (h : s.IsTextual) (v : Value) :
    s.refusal? v = none := by
  cases h with
  | text => rfl
  | choice options => rfl

/-- Free text is written as a literal. -/
theorem IsTextual.render_eq {s : Shape} (h : s.IsTextual) (v : Value) :
    s.render v = v.literal := by
  cases h with
  | text => rfl
  | choice options => rfl

/-- For a built-in shape one value can stand for another if it is free text or the same. -/
theorem IsBuiltin.interchangeable_render {s : Shape} (hs : s.IsBuiltin) {v w : Value}
    (h : s.IsTextual ∨ v = w) : Interchangeable (s.render v).toList (s.render w).toList := by
  rcases h with htextual | rfl
  · rw [htextual.render_eq, htextual.render_eq]
    exact interchangeable_literal _ _
  · cases hs with
    | text => exact interchangeable_literal _ _
    | choice options => exact interchangeable_literal _ _
    | number => exact interchangeable_numeral v
    | tags => exact interchangeable_tagLiterals _

end Shape

theorem Kind.isBuiltin_of_mem_builtins {k : Kind} (h : k ∈ builtins) : k.shape.IsBuiltin := by
  simp only [builtins, List.mem_cons, List.not_mem_nil, or_false] at h
  rcases h with rfl | rfl | rfl | rfl
  · exact .text
  · exact .number
  · exact .choice _
  · exact .tags

end QueryStencil
