/-
# `QueryStencil.Proofs.Engine.Default` — a value that the template brings along

`giveDefault` writes a default into one hole of a template, in place of the one
that stands there or after the label and the kind.  A valid template stays
valid by that, it has the same segments, and its placeholders stay as they are
but for this one, which says the new default (`getElem?_told_giveDefault`).

A filling makes something of each placeholder by what it says, by its source,
and by its value (`outcome`).  So two fillings are the same if they make the
same of one placeholder, and the templates and the values agree besides
(`fill_eq_of_agreeBesides`).
-/
import QueryStencil.Proofs.Engine.Said

namespace QueryStencil

open Template

/-! ## Lists -/

theorem exists_of_mem_modify {α : Type} {f : α → α} {xs : List α} {i : Nat} {y : α}
    (h : y ∈ xs.modify i f) : ∃ x ∈ xs, y = x ∨ y = f x := by
  obtain ⟨j, hj⟩ := List.mem_iff_getElem?.mp h
  rw [List.getElem?_modify] at hj
  obtain ⟨x, hx, rfl⟩ := Option.map_eq_some_iff.mp hj
  refine ⟨x, List.mem_of_getElem? hx, ?_⟩
  split
  · exact .inr rfl
  · exact .inl rfl

theorem getElem?_filterMap_of_isSome {α β : Type} {f : α → Option β} {xs : List α}
    (h : ∀ x ∈ xs, (f x).isSome) (j : Nat) : (xs.filterMap f)[j]? = xs[j]?.bind f := by
  induction xs generalizing j with
  | nil => rfl
  | cons x xs ih =>
      obtain ⟨hx, hxs⟩ := List.forall_mem_cons.mp h
      obtain ⟨y, hy⟩ := Option.isSome_iff_exists.mp hx
      rw [List.filterMap_cons_some hy]
      cases j with
      | zero => exact hy.symm
      | succ j => exact ih hxs j

namespace Template

/-! ## Another default in a hole -/

/-- The content of a hole with this default, and with the label and the kind that it has. -/
def withDefault (standIn : String) (content : List Char) : List Char :=
  Text.before ':' content ++ ':' ::
    (Text.before ':' (Text.after ':' content) ++ ':' :: standIn.toList)

/-- The template with a default in one of its holes. -/
def giveDefault (i : Nat) (standIn template : String) : String :=
  refilled ((contents (piecesOf template)).modify i (withDefault standIn)) template

/-- What stands in a hole as a default just as it is: there are no blanks at its ends, no brace in
it, and no backslash at its end. -/
structure Bare (standIn : String) : Prop where
  trim : Text.trim standIn.toList = standIn.toList
  braces : BraceFree standIn.toList
  back : standIn.toList.getLast? ≠ some '\\'

instance (standIn : String) : Decidable (Bare standIn) :=
  decidable_of_iff (Text.trim standIn.toList = standIn.toList ∧ BraceFree standIn.toList
      ∧ standIn.toList.getLast? ≠ some '\\')
    ⟨fun ⟨a, b, c⟩ => ⟨a, b, c⟩, fun ⟨a, b, c⟩ => ⟨a, b, c⟩⟩

variable {standIn : String} {content : List Char}

theorem fits_withDefault (hbare : Bare standIn) (h : Fits content) :
    Fits (withDefault standIn content) where
  braceFree := by
    have hcolon : ¬ IsBrace ':' := by decide
    have hlabel : BraceFree (Text.before ':' content) :=
      fun c hc => h.braceFree c (Text.mem_of_mem_before hc)
    have hkind : BraceFree (Text.before ':' (Text.after ':' content)) :=
      fun c hc => h.braceFree c (Text.mem_of_mem_after (Text.mem_of_mem_before hc))
    exact hlabel.append (.cons hcolon (hkind.append (.cons hcolon hbare.braces)))
  back := by
    rw [withDefault, escapedAfter_append, escapedAfter, escapedAfter_append, escapedAfter]
    exact escapedAfter_eq_false_iff.mpr hbare.back

/-- The label and the kind are as before. -/
theorem ofContent_withDefault {r : Registry} {fallback : String} {f : Field} (hbare : Bare standIn)
    (h : Field.ofContent r fallback content = .ok f) :
    Field.ofContent r fallback (withDefault standIn content) = .ok { f with standIn } := by
  obtain ⟨hne, hlabel, hkind, -⟩ := Field.ofContent_eq_ok_iff.mp h
  have hfirst : Text.before ':' (withDefault standIn content) = Text.before ':' content :=
    Text.before_append (Text.not_mem_before ':' content) _
  have hrest : Text.after ':' (withDefault standIn content)
      = Text.before ':' (Text.after ':' content) ++ ':' :: standIn.toList :=
    Text.after_append (Text.not_mem_before ':' content) _
  have hsecond : Text.before ':' (Text.after ':' (withDefault standIn content))
      = Text.before ':' (Text.after ':' content) := by
    rw [hrest, Text.before_append (Text.not_mem_before ':' _)]
  refine Field.ofContent_eq_ok_iff.mpr ⟨hne, ?_, ?_, ?_⟩
  · rw [hfirst]
    exact hlabel
  · rw [hsecond]
    exact hkind
  · rw [hrest, Text.after_append (Text.not_mem_before ':' _), hbare.trim]

section GiveDefault

variable {template : String} (hbare : Bare standIn) (i : Nat)

include hbare in
theorem fits_of_mem_modify :
    ∀ other ∈ (contents (piecesOf template)).modify i (withDefault standIn), Fits other := by
  intro other hother
  obtain ⟨content, hcontent, rfl | rfl⟩ := exists_of_mem_modify hother
  · exact fits_of_mem_contents hcontent
  · exact fits_withDefault hbare (fits_of_mem_contents hcontent)

include hbare in
theorem contents_giveDefault :
    contents (piecesOf (giveDefault i standIn template))
      = (contents (piecesOf template)).modify i (withDefault standIn) := by
  rw [giveDefault, piecesOf_refilled (fits_of_mem_modify hbare i),
    contents_refill (List.length_modify _ _ _)]

include hbare in
theorem stretches_giveDefault :
    stretches (piecesOf (giveDefault i standIn template)) = stretches (piecesOf template) := by
  rw [giveDefault, piecesOf_refilled (fits_of_mem_modify hbare i), stretches_refill]

include hbare in
theorem strays_giveDefault (h : strays template = []) :
    strays (giveDefault i standIn template) = [] :=
  strays_refilled (fits_of_mem_modify hbare i) h

end GiveDefault

/-- What a placeholder says, its source, and its number. -/
def Placeholder.told (p : Placeholder) : Field × String × Nat := (p.toField, p.source, p.ordinal)

end Template

/-- Two lists have the same values but for one place. -/
def AgreeBesides (i : Nat) (values values' : List Value) : Prop :=
  ∀ j, j ≠ i → values[j]? = values'[j]?

namespace Engine

variable {e : Engine}

/-! ## Placeholders one by one -/

/-- What a placeholder of a valid template is told by: the content of its hole. -/
theorem getElem?_told {template : String} (h : (e.read template).IsValid) (j : Nat) :
    (e.read template).placeholders[j]?.map Placeholder.told
      = (contents (piecesOf template))[j]?.bind fun content =>
          (e.says? content).map fun f =>
            (f, String.ofList (Piece.hole content).source, j) := by
  have hspoken := (isValid_read_iff.mp h).1
  rw [← map_content_holesFrom 0, List.forall_mem_map] at hspoken
  have hfound : ∀ hole ∈ holes template, ((e.field hole).toOption.map (hole, ·)).isSome := by
    intro hole hmem
    rw [Option.isSome_map]
    exact hspoken hole hmem
  rw [read, getElem?_placeholdersIn, found, getElem?_filterMap_of_isSome hfound,
    ← map_content_holesFrom 0, List.getElem?_map]
  show _ = ((holes template)[j]?.map Hole.content).bind _
  cases (holes template)[j]? with
  | none => rfl
  | some hole =>
      show Option.map _ (Option.map _ ((e.field hole).toOption.map (hole, ·))) = _
      rw [Option.map_map, Option.map_map]
      rfl

section GiveDefault

variable {template standIn : String} (hbare : Bare standIn) (hvalid : (e.read template).IsValid)
  (i : Nat)

include hbare in
theorem says?_withDefault {content : List Char} {f : Field} (h : e.says? content = some f) :
    e.says? (withDefault standIn content) = some { f with standIn } :=
  says?_eq_some_iff.mpr (ofContent_withDefault hbare (says?_eq_some_iff.mp h))

include hbare hvalid in
theorem isValid_giveDefault : (e.read (giveDefault i standIn template)).IsValid := by
  obtain ⟨hspoken, hstrays⟩ := isValid_read_iff.mp hvalid
  refine isValid_read_iff.mpr ⟨?_, strays_giveDefault hbare i hstrays⟩
  rw [contents_giveDefault hbare]
  intro other hother
  obtain ⟨content, hcontent, rfl | rfl⟩ := exists_of_mem_modify hother
  · exact hspoken other hcontent
  · obtain ⟨f, hf⟩ := Option.isSome_iff_exists.mp (hspoken content hcontent)
    rw [says?_withDefault hbare hf]
    rfl

include hbare hvalid in
theorem segments_giveDefault :
    e.segments (giveDefault i standIn template) = e.segments template := by
  rw [segments_of_isValid (isValid_giveDefault hbare hvalid i), segments_of_isValid hvalid,
    stretches_giveDefault hbare]

include hbare hvalid in
/-- Other placeholders are as they were. -/
theorem getElem?_told_giveDefault {j : Nat} (hj : j ≠ i) :
    (e.read (giveDefault i standIn template)).placeholders[j]?.map Placeholder.told
      = (e.read template).placeholders[j]?.map Placeholder.told := by
  rw [getElem?_told (isValid_giveDefault hbare hvalid i), getElem?_told hvalid,
    contents_giveDefault hbare, List.getElem?_modify_ne _ _ hj.symm]

include hbare hvalid in
/-- The placeholder itself has its label, its kind and its number, and the default. -/
theorem exists_placeholder_giveDefault {p : Placeholder}
    (hp : p ∈ (e.read template).placeholders) :
    ∃ q, (e.read (giveDefault p.ordinal standIn template)).placeholders[p.ordinal]? = some q
      ∧ q.toField = { p.toField with standIn } ∧ q.ordinal = p.ordinal := by
  have hold := getElem?_told hvalid p.ordinal
  have hnew := getElem?_told (isValid_giveDefault hbare hvalid p.ordinal) p.ordinal
  rw [getElem?_ordinal hp] at hold
  obtain ⟨content, hcontent, hsays⟩ := Option.bind_eq_some_iff.mp hold.symm
  obtain ⟨f, hf, htold⟩ := Option.map_eq_some_iff.mp hsays
  obtain ⟨rfl, -⟩ := Prod.mk.inj htold
  rw [contents_giveDefault hbare, List.getElem?_modify_eq, hcontent, Option.map_eq_map,
    Option.map_some, Option.bind_some, says?_withDefault hbare hf] at hnew
  obtain ⟨q, hq, htold'⟩ := Option.map_eq_some_iff.mp hnew
  obtain ⟨hfield, hrest⟩ := Prod.mk.inj htold'
  exact ⟨q, hq, hfield, (Prod.mk.inj hrest).2⟩

end GiveDefault

/-! ## What is made of a placeholder -/

/-- What a filling makes of a placeholder: what is written there, and why its value is refused,
if it is. -/
def outcome (e : Engine) (values : List Value) (p : Placeholder) : String × Option Rejection :=
  (e.rendition p (e.valueOf values p), e.rejection? p (e.valueOf values p))

theorem outcome_of_told {values values' : List Value} {p q : Placeholder} (h : p.told = q.told)
    (hvalues : values[p.ordinal]? = values'[p.ordinal]?) :
    e.outcome values p = e.outcome values' q := by
  -- they differ in nothing but where they stand
  cases p
  cases q
  cases h
  rw [outcome, outcome, valueOf_congr hvalues]
  rfl

section Fillings

variable {s t : String} {values values' : List Value}
  (hs : (e.read s).IsValid) (ht : (e.read t).IsValid) (hsegments : e.segments s = e.segments t)

include hs ht hsegments

/-- Fillings that make the same of all placeholders are the same, if the segments are. -/
theorem fill_eq_of_outcomes
    (h : (e.read s).placeholders.map (e.outcome values)
      = (e.read t).placeholders.map (e.outcome values')) :
    e.fill s values = e.fill t values' := by
  have htexts := congrArg (List.map fun made => made.1.toList) h
  have hrejections := congrArg (List.filterMap fun made => made.2) h
  rw [List.map_map, List.map_map] at htexts
  rw [List.filterMap_map, List.filterMap_map] at hrejections
  have htext : (e.fill s values).text = (e.fill t values').text := by
    apply String.toList_inj.mp
    rw [toList_text_fill_spliced hs, toList_text_fill_spliced ht, spliced, spliced, hsegments]
    exact congrArg (fun texts => unescape (interleave _ texts)) htexts
  have hcomplaints : (e.fill s values).complaints = (e.fill t values').complaints := by
    rw [e.complaints_fill hs, e.complaints_fill ht]
    exact congrArg (fun found => (List.reverse found).map Complaint.rejected) hrejections
  show Filled.mk (e.fill s values).text (e.fill s values).complaints = _
  rw [htext, hcomplaints]

/-- It is enough to look at one placeholder where the templates and the values agree besides. -/
theorem fill_eq_of_agreeBesides {i : Nat}
    (htold : ∀ j, j ≠ i → (e.read s).placeholders[j]?.map Placeholder.told
      = (e.read t).placeholders[j]?.map Placeholder.told)
    (hvalues : AgreeBesides i values values')
    (h : (e.read s).placeholders[i]?.map (e.outcome values)
      = (e.read t).placeholders[i]?.map (e.outcome values')) :
    e.fill s values = e.fill t values' := by
  refine fill_eq_of_outcomes hs ht hsegments (List.ext_getElem? fun j => ?_)
  rw [List.getElem?_map, List.getElem?_map]
  by_cases hj : j = i
  · rw [hj]
    exact h
  · have hsame := htold j hj
    cases hp : (e.read s).placeholders[j]? with
    | none =>
        rw [hp, Option.map_none] at hsame
        rw [Option.map_eq_none_iff.mp hsame.symm]
        rfl
    | some p =>
        rw [hp, Option.map_some] at hsame
        obtain ⟨q, hq, htold'⟩ := Option.map_eq_some_iff.mp hsame.symm
        have hordinal : p.ordinal = j := e.ordinal_of_getElem?_placeholdersIn hp
        rw [hq, Option.map_some, Option.map_some,
          outcome_of_told htold'.symm (hordinal ▸ hvalues j hj)]

end Fillings

end Engine

end QueryStencil
