/-
# `QueryStencil.Proofs.Template.Field` — what the content of a hole says, and back

Content is cut at colons, trimmed, and looked up (`ofContent_eq_ok_iff`).  So a
field that was read has no blanks at the ends of its parts, no brace in them, and
no colon but in the default (`Tidy`), and its kind is one that holes can name
(`Nameable`) or the fallback.

A field like that is what its own content says (`Clean.ofContent_content`),
whatever blanks follow.  What a field was read from says more than the field:
there may have been blanks around the parts, no kind, or an end without colons.
-/
import QueryStencil.Proofs.Template.Occurrence
import QueryStencil.Proofs.Text.Trim
import QueryStencil.Template.Placeholder

namespace QueryStencil.Template

/-- No brace, escaped or not. -/
def BraceFree (cs : List Char) : Prop := ∀ c ∈ cs, ¬ IsBrace c

instance (cs : List Char) : Decidable (BraceFree cs) := List.decidableBAll _ cs

theorem BraceFree.append {as bs : List Char} (ha : BraceFree as) (hb : BraceFree bs) :
    BraceFree (as ++ bs) := by
  intro c hc
  rcases List.mem_append.mp hc with hc | hc
  · exact ha c hc
  · exact hb c hc

theorem BraceFree.cons {c : Char} {cs : List Char} (hc : ¬ IsBrace c) (hcs : BraceFree cs) :
    BraceFree (c :: cs) :=
  List.forall_mem_cons.mpr ⟨hc, hcs⟩

/-- A name that a hole can give for a kind: it is known, there are no blanks at
its ends, and no separator in it. -/
structure Nameable (r : Registry) (name : String) : Prop where
  mem : name ∈ r
  trim : Text.trim name.toList = name.toList
  braces : BraceFree name.toList
  colon : ':' ∉ name.toList

instance (r : Registry) (name : String) : Decidable (Nameable r name) :=
  decidable_of_iff
    (name ∈ r ∧ Text.trim name.toList = name.toList ∧ BraceFree name.toList
      ∧ ':' ∉ name.toList)
    ⟨fun ⟨a, b, c, d⟩ => ⟨a, b, c, d⟩, fun ⟨a, b, c, d⟩ => ⟨a, b, c, d⟩⟩

theorem Nameable.ne_nil {r : Registry} {name : String} (h : Nameable r name) :
    name.toList ≠ [] := by
  obtain ⟨entry, -, rfl⟩ := List.mem_map.mp h.mem
  intro hnil
  have hvisible := entry.visible
  rw [hnil] at hvisible
  exact hvisible fun c hc => absurd hc List.not_mem_nil

namespace Field

/-- What stands between the braces of a printed field. -/
def content (f : Field) : List Char :=
  f.label.toList ++ ':' :: (f.kind.toList ++ ':' :: f.standIn.toList)

/-- There is a label, label and default have no blanks at their ends and no
brace in them, and the label has no colon. -/
structure Tidy (f : Field) : Prop where
  label_ne : f.label ≠ ""
  label_trim : Text.trim f.label.toList = f.label.toList
  label_braces : BraceFree f.label.toList
  label_colon : ':' ∉ f.label.toList
  standIn_trim : Text.trim f.standIn.toList = f.standIn.toList
  standIn_braces : BraceFree f.standIn.toList

/-- A tidy field of a kind that holes can name. -/
structure Clean (r : Registry) (f : Field) : Prop extends Tidy f where
  kind_nameable : Nameable r f.kind

variable {r : Registry} {f : Field} {fallback : String} {content : List Char}

/-! ## What content says -/

theorem eq_of_parts {label standIn : List Char} {kind : String} (hlabel : f.label.toList = label)
    (hkind : f.kind = kind) (hstandIn : f.standIn.toList = standIn) :
    ⟨String.ofList label, kind, String.ofList standIn⟩ = f := by
  subst hlabel hkind hstandIn
  rw [String.ofList_toList, String.ofList_toList]

/-- Content says a field if it has a label, and a kind that is known or left out. -/
theorem ofContent_eq_ok_iff :
    ofContent r fallback content = .ok f
      ↔ f.label.toList ≠ [] ∧ f.label.toList = Text.trim (Text.before ':' content)
        ∧ ((Text.trim (Text.before ':' (Text.after ':' content)) = [] ∧ f.kind = fallback)
          ∨ (f.kind.toList ≠ [] ∧ f.kind ∈ r
            ∧ f.kind.toList = Text.trim (Text.before ':' (Text.after ':' content))))
        ∧ f.standIn.toList = Text.trim (Text.after ':' (Text.after ':' content)) := by
  by_cases hlabel : Text.trim (Text.before ':' content) = []
  · refine iff_of_false ?_ fun h => h.1 (h.2.1.trans hlabel)
    intro h
    simp only [ofContent, if_pos hlabel] at h
    split at h <;> cases h
  have hblank : ¬ Text.AllBlank content := fun h =>
    hlabel (Text.trim_of_allBlank fun c hc => h c (Text.mem_of_mem_before hc))
  simp only [ofContent, if_neg hblank, if_neg hlabel]
  generalize Text.trim (Text.before ':' (Text.after ':' content)) = named
  by_cases hnamed : named = []
  · rw [if_pos hnamed, if_neg fun hunknown => hunknown.1 hnamed, Except.ok.injEq]
    constructor
    · rintro rfl
      refine ⟨?_, String.toList_ofList, .inl ⟨hnamed, rfl⟩, String.toList_ofList⟩
      rw [String.toList_ofList]
      exact hlabel
    · rintro ⟨-, hf, ⟨-, hkind⟩ | ⟨hne, -, hkind⟩, hstandIn⟩
      · exact eq_of_parts hf hkind hstandIn
      · exact absurd (hkind.trans hnamed) hne
  · rw [if_neg hnamed]
    by_cases hmem : String.ofList named ∈ r
    · rw [if_neg fun hunknown => hunknown.2 hmem, Except.ok.injEq]
      constructor
      · rintro rfl
        refine ⟨?_, String.toList_ofList, .inr ⟨?_, hmem, String.toList_ofList⟩,
          String.toList_ofList⟩
        · rw [String.toList_ofList]
          exact hlabel
        · rw [String.toList_ofList]
          exact hnamed
      · rintro ⟨-, hf, ⟨hnil, -⟩ | ⟨-, -, hkind⟩, hstandIn⟩
        · exact absurd hnil hnamed
        · exact eq_of_parts hf (by rw [← hkind, String.ofList_toList]) hstandIn
    · rw [if_pos ⟨hnamed, hmem⟩]
      refine iff_of_false (fun h => by cases h) ?_
      rintro ⟨-, -, ⟨hnil, -⟩ | ⟨-, hknown, hkind⟩, -⟩
      · exact hnamed hnil
      · rw [← hkind, String.ofList_toList] at hmem
        exact hmem hknown

/-! ## From a field to its content -/

theorem Tidy.braceFree_content (h : f.Tidy) (hkind : BraceFree f.kind.toList) :
    BraceFree f.content := by
  have hcolon : ¬ IsBrace ':' := by decide
  exact h.label_braces.append (.cons hcolon (hkind.append (.cons hcolon h.standIn_braces)))

theorem Clean.braceFree_content (h : f.Clean r) : BraceFree f.content :=
  h.toTidy.braceFree_content h.kind_nameable.braces

/-- A tidy field is said by its own label and default with a name between them, if the name means
its kind.  Blanks may follow. -/
theorem Tidy.ofContent_iff (h : f.Tidy) {named pad : List Char} (hnamed : ':' ∉ named)
    (hpad : Text.AllBlank pad) :
    ofContent r fallback
        (f.label.toList ++ ':' :: (named ++ ':' :: (f.standIn.toList ++ pad))) = .ok f
      ↔ (Text.trim named = [] ∧ f.kind = fallback)
        ∨ (f.kind.toList ≠ [] ∧ f.kind ∈ r ∧ f.kind.toList = Text.trim named) := by
  rw [ofContent_eq_ok_iff, Text.before_append h.label_colon, Text.after_append h.label_colon,
    Text.before_append hnamed, Text.after_append hnamed, Text.trim_append_of_allBlank _ hpad,
    h.label_trim, h.standIn_trim]
  constructor
  · rintro ⟨-, -, hkind, -⟩
    exact hkind
  · intro hkind
    exact ⟨fun hnil => h.label_ne (String.toList_eq_nil_iff.mp hnil), rfl, hkind, rfl⟩

/-- The content of a clean field says that field, whatever blanks follow it. -/
theorem Clean.ofContent_content (h : f.Clean r) (fallback : String) {pad : List Char}
    (hpad : Text.AllBlank pad) : Field.ofContent r fallback (f.content ++ pad) = .ok f := by
  have hcontent : f.content ++ pad
      = f.label.toList ++ ':' :: (f.kind.toList ++ ':' :: (f.standIn.toList ++ pad)) := by
    simp [Field.content]
  have hkind := h.kind_nameable
  rw [hcontent]
  exact (h.toTidy.ofContent_iff hkind.colon hpad).mpr
    (.inr ⟨hkind.ne_nil, hkind.mem, hkind.trim.symm⟩)

/-! ## From content to its field -/

/-- Trimming puts no brace in, and cutting at a colon does not either. -/
theorem braceFree_trim {cs : List Char} (hfree : BraceFree content) (h : cs ⊆ content) :
    BraceFree (Text.trim cs) :=
  fun c hc => hfree c (h (Text.mem_of_mem_trim hc))

theorem tidy_of_ofContent (hfree : BraceFree content)
    (h : ofContent r fallback content = .ok f) : f.Tidy := by
  obtain ⟨hne, hlabel, -, hstandIn⟩ := ofContent_eq_ok_iff.mp h
  have hbefore : Text.before ':' content ⊆ content := fun c hc => Text.mem_of_mem_before hc
  have hafter : Text.after ':' (Text.after ':' content) ⊆ content :=
    fun c hc => Text.mem_of_mem_after (Text.mem_of_mem_after hc)
  constructor
  · exact fun hnil => hne (String.toList_eq_nil_iff.mpr hnil)
  · rw [hlabel, Text.trim_trim]
  · rw [hlabel]
    exact braceFree_trim hfree hbefore
  · rw [hlabel]
    exact fun hcolon => Text.not_mem_before ':' content (Text.mem_of_mem_trim hcolon)
  · rw [hstandIn, Text.trim_trim]
  · rw [hstandIn]
    exact braceFree_trim hfree hafter

theorem kind_of_ofContent (hfree : BraceFree content)
    (h : ofContent r fallback content = .ok f) : f.kind = fallback ∨ Nameable r f.kind := by
  obtain ⟨-, -, hkind, -⟩ := ofContent_eq_ok_iff.mp h
  rcases hkind with ⟨-, hfallback⟩ | ⟨-, hmem, hname⟩
  · exact .inl hfallback
  · have hbetween : Text.before ':' (Text.after ':' content) ⊆ content :=
      fun c hc => Text.mem_of_mem_after (Text.mem_of_mem_before hc)
    refine .inr ⟨hmem, ?_, ?_, ?_⟩
    · rw [hname, Text.trim_trim]
    · rw [hname]
      exact braceFree_trim hfree hbetween
    · rw [hname]
      exact fun hcolon => Text.not_mem_before ':' _ (Text.mem_of_mem_trim hcolon)

/-- Where holes can name the fallback, every field that is read is clean. -/
theorem clean_of_ofContent (hfallback : Nameable r fallback) (hfree : BraceFree content)
    (h : ofContent r fallback content = .ok f) : f.Clean r where
  toTidy := tidy_of_ofContent hfree h
  kind_nameable := by
    rcases kind_of_ofContent hfree h with heq | hnameable
    · exact heq ▸ hfallback
    · exact hnameable

end Field

end QueryStencil.Template
