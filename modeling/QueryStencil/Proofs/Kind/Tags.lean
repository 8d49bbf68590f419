/-
# `QueryStencil.Proofs.Kind.Tags` — tags written, and read back

Tags are written as literals with commas between them, one for each tag, so they
can be told from what is written: the literals are read to the end and give the
tags again (`literals?_render`), whatever quotes and commas are in them.  The one
exception is that no tags are written as one empty tag.

Tags can also be supplied as a text with commas.  The tags of a text are not
empty and not blank at their ends, have no comma, and stand in the text in
their order with nothing but blanks and commas around them (`TagsIn`).  Such
tags are exactly those that survive being joined by commas (`tagsOfText_joined`),
and so a text, the list of its tags, and these tags joined again are written
alike (`render_text_tags`).
-/
import QueryStencil.Proofs.Kind.Interchange
import QueryStencil.Proofs.Sql.LiteralList
import QueryStencil.Proofs.Template.Interleave
import QueryStencil.Proofs.Text.Trim

namespace QueryStencil

namespace Value

/-! ## Tags as literals -/

/-- The tags that are written: an empty one if there are none. -/
def shownTags (tags : List String) : List String := if tags = [] then [""] else tags

theorem shownTags_ne_nil (tags : List String) : shownTags tags ≠ [] := by
  rw [shownTags]
  split
  · exact List.cons_ne_nil _ _
  · assumption

/-- Only no tags and one empty tag are not told apart. -/
theorem shownTags_eq_iff {xs ys : List String} :
    shownTags xs = shownTags ys
      ↔ xs = ys ∨ ((xs = [] ∨ xs = [""]) ∧ (ys = [] ∨ ys = [""])) := by
  by_cases hx : xs = []
  · by_cases hy : ys = []
    · simp [hx, hy]
    · simp [shownTags, hx, hy, eq_comm]
  · by_cases hy : ys = []
    · simp [shownTags, hx, hy]
    · rw [shownTags, shownTags, if_neg hx, if_neg hy]
      constructor
      · exact .inl
      · rintro (h | ⟨hx', hy'⟩)
        · exact h
        · exact (hx'.resolve_left hx).trans (hy'.resolve_left hy).symm

theorem toList_tagLiterals (tags : List String) :
    (tagLiterals tags).toList = Sql.quotedList ((shownTags tags).map String.toList) := by
  induction tags with
  | nil => exact Sql.toList_literal ""
  | cons tag tags ih =>
      cases tags with
      | nil =>
          rw [tagLiterals_singleton, Sql.toList_literal]
          rfl
      | cons tag' tags =>
          rw [toList_tagLiterals_cons_cons, ih, Sql.toList_literal, List.append_assoc]
          rfl

/-- Reading the literals of tags gives the tags, and nothing is left over. -/
theorem literals?_tagLiterals (tags : List String) :
    Sql.literals? (tagLiterals tags).toList
      = some ((shownTags tags).map String.toList, []) := by
  have hne : (shownTags tags).map String.toList ≠ [] :=
    fun h => shownTags_ne_nil tags (List.map_eq_nil_iff.mp h)
  refine Sql.literals?_eq_some_iff.mpr ⟨hne, ?_, by decide⟩
  rw [toList_tagLiterals, List.append_nil]

theorem tagLiterals_eq_iff {xs ys : List String} :
    tagLiterals xs = tagLiterals ys ↔ shownTags xs = shownTags ys := by
  constructor
  · intro h
    have hread := literals?_tagLiterals xs
    rw [h, literals?_tagLiterals ys] at hread
    have hmap := (Prod.mk.inj (Option.some.inj hread)).1
    exact (List.map_injective_iff.mpr (fun _ _ => String.toList_injective) hmap).symm
  · intro h
    apply String.toList_inj.mp
    rw [toList_tagLiterals, toList_tagLiterals, h]

theorem tags?_list_text (xs : List String) : (list (xs.map text)).tags? = some xs := by
  have hmap : (xs.map text).map display = xs := by
    rw [List.map_map]
    exact List.map_id' xs
  exact congrArg some hmap

theorem tagList_of_tags? {v : Value} {tags : List String} (h : v.tags? = some tags) :
    v.tagList = tagLiterals tags := by
  rw [tagList, h, Option.getD_some]

/-! ## The tags of a text -/

/-- A tag that a text with commas can have: there is something in it, no blank at its ends,
and no comma. -/
structure IsTag (tag : String) : Prop where
  ne_empty : tag ≠ ""
  trim : Text.trim tag.toList = tag.toList
  comma : ',' ∉ tag.toList

instance (tag : String) : Decidable (IsTag tag) :=
  decidable_of_iff (tag ≠ "" ∧ Text.trim tag.toList = tag.toList ∧ ',' ∉ tag.toList)
    ⟨fun h => ⟨h.1, h.2.1, h.2.2⟩, fun h => ⟨h.1, h.2, h.3⟩⟩

/-- The tags stand in the text one after the other, with nothing but blanks and commas before,
between and after them, and with a comma between any two. -/
def TagsIn (cs : List Char) (tags : List (List Char)) : Prop :=
  ∃ gaps : List (List Char), gaps.length = tags.length + 1
    ∧ Template.interleave gaps tags = cs
    ∧ (∀ gap ∈ gaps, ∀ c ∈ gap, Text.isBlank c = true ∨ c = ',')
    ∧ ∀ gap ∈ gaps.tail.dropLast, ',' ∈ gap

/-- What is kept of the parts between commas. -/
def keptTags (parts : List (List Char)) : List (List Char) :=
  (parts.map Text.trim).filter (· ≠ [])

theorem tagsOfText_eq (s : String) :
    tagsOfText s = (keptTags (Text.splitOn ',' s.toList)).map String.ofList := rfl

theorem map_toList_tagsOfText (s : String) :
    (tagsOfText s).map String.toList = keptTags (Text.splitOn ',' s.toList) := by
  rw [tagsOfText_eq, List.map_map]
  exact (List.map_congr_left fun _ _ => String.toList_ofList).trans (List.map_id' _)

theorem isTag_of_mem_tagsOfText {s tag : String} (h : tag ∈ tagsOfText s) : IsTag tag := by
  rw [tagsOfText_eq] at h
  obtain ⟨cs, hcs, rfl⟩ := List.mem_map.mp h
  obtain ⟨htrimmed, hne⟩ := List.mem_filter.mp hcs
  obtain ⟨part, hpart, rfl⟩ := List.mem_map.mp htrimmed
  constructor
  · intro hempty
    refine of_decide_eq_true hne (String.ofList_inj.mp ?_)
    exact hempty.trans String.ofList_nil.symm
  · rw [String.toList_ofList, Text.trim_trim]
  · rw [String.toList_ofList]
    exact fun hcomma => Text.not_mem_of_mem_splitOn hpart (Text.mem_of_mem_trim hcomma)

namespace TagsIn

variable {cs : List Char} {tags : List (List Char)}

theorem nil : TagsIn [] [] :=
  ⟨[[]], rfl, rfl, by simp, by simp⟩

/-- More blanks and commas before everything. -/
theorem pad {pad : List Char} (hpad : ∀ c ∈ pad, Text.isBlank c = true ∨ c = ',')
    (h : TagsIn cs tags) : TagsIn (pad ++ cs) tags := by
  obtain ⟨gaps, hlength, rfl, hgaps, hbetween⟩ := h
  cases gaps with
  | nil => exact absurd hlength (Nat.succ_ne_zero _).symm
  | cons gap gaps =>
      obtain ⟨hgap, hrest⟩ := List.forall_mem_cons.mp hgaps
      refine ⟨(pad ++ gap) :: gaps, hlength, Template.interleave_append_cons pad gap gaps tags,
        List.forall_mem_cons.mpr ⟨?_, hrest⟩, hbetween⟩
      intro c hc
      exact (List.mem_append.mp hc).elim (hpad c) (hgap c)

/-- One more tag in front, with a comma after it unless it is the only one. -/
theorem tag (tag : List Char) {pad : List Char}
    (hpad : ∀ c ∈ pad, Text.isBlank c = true ∨ c = ',') (hcomma : tags = [] ∨ ',' ∈ pad)
    (h : TagsIn cs tags) : TagsIn (tag ++ (pad ++ cs)) (tag :: tags) := by
  obtain ⟨gaps, hlength, rfl, hgaps, hbetween⟩ := h
  cases gaps with
  | nil => exact absurd hlength (Nat.succ_ne_zero _).symm
  | cons gap gaps =>
      obtain ⟨hgap, hrest⟩ := List.forall_mem_cons.mp hgaps
      refine ⟨[] :: (pad ++ gap) :: gaps, congrArg Nat.succ hlength, ?_, ?_, ?_⟩
      · rw [Template.interleave, Template.interleave_append_cons, List.nil_append]
      · refine List.forall_mem_cons.mpr ⟨by simp, List.forall_mem_cons.mpr ⟨?_, hrest⟩⟩
        intro c hc
        exact (List.mem_append.mp hc).elim (hpad c) (hgap c)
      · show ∀ between ∈ ((pad ++ gap) :: gaps).dropLast, ',' ∈ between
        cases gaps with
        | nil => simp
        | cons gap' gaps =>
            have hsome : tags ≠ [] := by
              rintro rfl
              simp at hlength
            refine List.forall_mem_cons.mpr ⟨?_, hbetween⟩
            exact List.mem_append_left _ (hcomma.resolve_left hsome)

end TagsIn

theorem keptTags_cons (part : List Char) (parts : List (List Char)) :
    keptTags (part :: parts)
      = if Text.trim part = [] then keptTags parts else Text.trim part :: keptTags parts := by
  by_cases h : Text.trim part = []
  · rw [if_pos h]
    exact List.filter_cons_of_neg (by simp [h])
  · rw [if_neg h]
    exact List.filter_cons_of_pos (by simp [h])

/-- A part between commas is blank, or there is one tag in it. -/
theorem TagsIn.part (part : List Char) {pad cs : List Char} {parts : List (List Char)}
    (hpad : ∀ c ∈ pad, Text.isBlank c = true ∨ c = ',')
    (hcomma : keptTags parts = [] ∨ ',' ∈ pad) (h : TagsIn cs (keptTags parts)) :
    TagsIn (part ++ (pad ++ cs)) (keptTags (part :: parts)) := by
  obtain ⟨front, back, hfront, hback, heq⟩ := Text.exists_eq_append_trim part
  have hafter : ∀ c ∈ back ++ pad, Text.isBlank c = true ∨ c = ',' := by
    intro c hc
    exact (List.mem_append.mp hc).elim (fun hc => .inl (hback c hc)) (hpad c)
  have hbefore : ∀ c ∈ front, Text.isBlank c = true ∨ c = ',' := fun c hc => .inl (hfront c hc)
  have hcs : part ++ (pad ++ cs) = front ++ (Text.trim part ++ ((back ++ pad) ++ cs)) := by
    conv_lhs => rw [heq]
    simp only [List.append_assoc]
  rw [hcs, keptTags_cons]
  split
  · rename_i hblank
    rw [hblank]
    exact (h.pad hafter).pad hbefore
  · exact (h.tag _ hafter (hcomma.imp_right (List.mem_append_right back))).pad hbefore

theorem tagsIn_joinOn (parts : List (List Char)) :
    TagsIn (Text.joinOn ',' parts) (keptTags parts) := by
  induction parts with
  | nil => exact .nil
  | cons part parts ih =>
      cases parts with
      | nil =>
          have hnone : ∀ c ∈ ([] : List Char), Text.isBlank c = true ∨ c = ',' := by simp
          have hpart : TagsIn (part ++ ([] ++ [])) (keptTags [part]) :=
            .part part hnone (.inl rfl) .nil
          rwa [List.append_nil, List.append_nil] at hpart
      | cons next parts =>
          have hpad : ∀ c ∈ [','], Text.isBlank c = true ∨ c = ',' := by simp
          exact .part part hpad (.inr (List.mem_singleton_self ',')) ih

/-- Every tag of a text stands in it, in the order of the tags. -/
theorem tagsIn_tagsOfText (s : String) :
    TagsIn s.toList ((tagsOfText s).map String.toList) := by
  have hparts := tagsIn_joinOn (Text.splitOn ',' s.toList)
  rwa [Text.joinOn_splitOn, ← map_toList_tagsOfText] at hparts

/-! ## Joined tags -/

theorem toList_intercalate_comma (tags : List String) :
    (",".intercalate tags).toList = Text.joinOn ',' (tags.map String.toList) := by
  induction tags with
  | nil => rfl
  | cons tag tags ih =>
      cases tags with
      | nil =>
          rw [String.intercalate_singleton]
          rfl
      | cons next tags =>
          rw [String.intercalate_cons_cons, String.toList_append, String.toList_append, ih,
            List.append_assoc]
          rfl

theorem keptTags_of_forall {parts : List (List Char)}
    (h : ∀ part ∈ parts, part ≠ [] ∧ Text.trim part = part) : keptTags parts = parts := by
  have hmap : parts.map Text.trim = parts :=
    (List.map_congr_left fun part hpart => (h part hpart).2).trans (List.map_id' parts)
  rw [keptTags, hmap, List.filter_eq_self]
  exact fun part hpart => decide_eq_true (h part hpart).1

/-- Tags joined by commas are the tags of the joined text. -/
theorem tagsOfText_joined {tags : List String} (h : ∀ tag ∈ tags, IsTag tag) :
    tagsOfText (",".intercalate tags) = tags := by
  have hcut : keptTags (Text.splitOn ',' (",".intercalate tags).toList)
      = tags.map String.toList := by
    rw [toList_intercalate_comma]
    cases tags with
    | nil => rfl
    | cons tag tags =>
        have hne : (tag :: tags).map String.toList ≠ [] := List.cons_ne_nil _ _
        rw [Text.splitOn_joinOn hne, keptTags_of_forall]
        · rw [List.forall_mem_map]
          exact fun t ht => ⟨fun hnil => (h t ht).ne_empty (String.toList_eq_nil_iff.mp hnil),
            (h t ht).trim⟩
        · rw [List.forall_mem_map]
          exact fun t ht => (h t ht).comma
  rw [tagsOfText_eq, hcut, List.map_map]
  exact (List.map_congr_left fun _ _ => String.ofList_toList).trans (List.map_id' tags)

end Value

/-! ## Kinds -/

namespace Kind

theorem render_of_tags {k : Kind} (h : k.shape = .tags) (v : Value) : k.render v = v.tagList := by
  rw [h]
  rfl

theorem render_list_of_tags {k : Kind} (h : k.shape = .tags) (tags : List String) :
    k.render (.list (tags.map .text)) = Value.tagLiterals tags := by
  rw [render_of_tags h, Value.tagList_of_tags? (Value.tags?_list_text tags)]

theorem render_text_of_tags {k : Kind} (h : k.shape = .tags) (s : String) :
    k.render (.text s) = Value.tagLiterals (Value.tagsOfText s) := by
  rw [render_of_tags h, Value.tagList_of_tags? rfl]

/-- Written tags are read back.  Whatever is in the tags, the literals of a list are read to
the end and give the list; the literal of a text is read to its end before anything but a quote;
and lists are written alike only if they are the same, or if both are empty but for an empty
tag. -/
theorem literals?_render (k : Kind) (hshape : k.shape = .tags) :
    (∀ tags : List String, tags ≠ [] →
        Sql.literals? (k.render (.list (tags.map .text))).toList
          = some (tags.map String.toList, []))
      ∧ (∀ (s : String) (rest : List Char), rest.head? ≠ some '\'' →
          Sql.literal? ((Value.text s).literal.toList ++ rest) = some (s.toList, rest))
      ∧ ∀ tags tags' : List String,
          k.render (.list (tags.map .text)) = k.render (.list (tags'.map .text))
            ↔ tags = tags' ∨ ((tags = [] ∨ tags = [""]) ∧ (tags' = [] ∨ tags' = [""])) := by
  refine ⟨?_, ?_, ?_⟩
  · intro tags hne
    rw [render_list_of_tags hshape, Value.literals?_tagLiterals, Value.shownTags, if_neg hne]
  · intro s rest hrest
    refine Sql.literal?_eq_some_iff.mpr ⟨?_, hrest⟩
    rw [Value.literal, Sql.toList_literal]
    rfl
  · intro tags tags'
    rw [render_list_of_tags hshape, render_list_of_tags hshape, Value.tagLiterals_eq_iff,
      Value.shownTags_eq_iff]

/-- Tags that look like the text between two literals, an empty tag, a backslash and a line end;
and a literal before a comma. -/
theorem literals?_render_quotes :
    let tags := ["','", "", "''", "it's\\\n"]
    Kind.tags.shape = .tags ∧ tags ≠ []
      ∧ Kind.tags.render (.list (tags.map .text)) = "''',''','','''''','it''s\\\n'"
      ∧ Sql.literals? (Kind.tags.render (.list (tags.map .text))).toList
        = some (tags.map String.toList, [])
      ∧ [',', '\''].head? ≠ some '\''
      ∧ Sql.literal? ((Value.text "it's").literal.toList ++ [',', '\''])
        = some ("it's".toList, [',', '\''])
      ∧ Kind.tags.render (.list ([].map .text)) = Kind.tags.render (.list ([""].map .text)) := by
  intro tags
  have hne : tags ≠ [] := List.cons_ne_nil _ _
  obtain ⟨hlist, htext, halike⟩ := literals?_render Kind.tags rfl
  exact ⟨rfl, hne, by decide +kernel, hlist tags hne, by decide, htext "it's" _ (by decide),
    (halike [] [""]).mpr (.inr ⟨.inl rfl, .inr rfl⟩)⟩

/-- A text, the list of its tags, and its tags joined by commas are written alike.  The tags are
what stands in the text between blanks and commas, and tags of that form that are joined by
commas come back, whatever text they are from. -/
theorem render_text_tags (k : Kind) (hshape : k.shape = .tags) :
    (∀ s : String, ∃ tags, (Value.text s).tags? = some tags
      ∧ (∀ tag ∈ tags, Value.IsTag tag)
      ∧ Value.TagsIn s.toList (tags.map String.toList)
      ∧ (Value.text (",".intercalate tags)).tags? = some tags
      ∧ k.render (.text s) = k.render (.list (tags.map .text))
      ∧ k.render (.list (tags.map .text)) = k.render (.text (",".intercalate tags)))
    ∧ ∀ tags : List String, (∀ tag ∈ tags, Value.IsTag tag) →
        (Value.text (",".intercalate tags)).tags? = some tags := by
  have hjoined : ∀ tags : List String, (∀ tag ∈ tags, Value.IsTag tag) →
      (Value.text (",".intercalate tags)).tags? = some tags :=
    fun tags htags => congrArg some (Value.tagsOfText_joined htags)
  refine ⟨fun s => ?_, hjoined⟩
  have htags : ∀ tag ∈ Value.tagsOfText s, Value.IsTag tag :=
    fun tag => Value.isTag_of_mem_tagsOfText
  refine ⟨Value.tagsOfText s, rfl, htags, Value.tagsIn_tagsOfText s, hjoined _ htags, ?_, ?_⟩
  · rw [render_text_of_tags hshape, render_list_of_tags hshape]
  · rw [render_text_of_tags hshape, render_list_of_tags hshape, Value.tagsOfText_joined htags]

/-- Commas at both ends and in a row, a part of blanks only, and blanks inside of a tag. -/
theorem render_text_tags_commas :
    let s := ",, a b\t,\u2003, c,"
    let tags := ["a b", "c"]
    Kind.tags.shape = .tags ∧ (Value.text s).tags? = some tags ∧ (∀ tag ∈ tags, Value.IsTag tag)
      ∧ Kind.tags.render (.text s) = "'a b','c'"
      ∧ Kind.tags.render (.list (tags.map .text)) = Kind.tags.render (.text s)
      ∧ (Value.text (",".intercalate tags)).tags? = some tags := by
  intro s tags
  have htags : ∀ tag ∈ tags, Value.IsTag tag := by decide +kernel
  have hs : (Value.text s).tags? = some tags := by decide +kernel
  obtain ⟨htext, hjoined⟩ := render_text_tags Kind.tags rfl
  obtain ⟨found, hfound, -, -, -, hsame, -⟩ := htext s
  obtain rfl := Option.some.inj (hfound.symm.trans hs)
  exact ⟨rfl, hs, htags, by decide +kernel, hsame.symm, hjoined _ htags⟩

end Kind

end QueryStencil
