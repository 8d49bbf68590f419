/-
# `QueryStencil.Proofs.Engine.Places` — what stands in the place of a placeholder

A spliced template is what is spliced in front of a placeholder, what stands in
its place, and what is spliced behind it (`spliced_eq_around`).  The value of the
placeholder gets into its place and nowhere else, so two fillings that differ in
no other value have the same text around it (`splicedBefore_of_agreeBesides`,
`splicedAfter_of_agreeBesides`).

Escapes are undone in the whole, and what is sealed keeps its own escapes to
itself.  So two such fillings make the same text exactly if they write the same
into the place, apart from escapes (`text_fill_eq_iff_of_sealed`).
-/
import QueryStencil.Proofs.Engine.Default

namespace QueryStencil

open Template

namespace Engine

variable {e : Engine} {template : String} {values values' : List Value} {p : Placeholder}

/-! ## Around a placeholder -/

/-- The texts that stand for the placeholders of a template, from left to right. -/
def renditions (e : Engine) (template : String) (values : List Value) : List (List Char) :=
  (e.read template).placeholders.map fun p => (e.rendition p (e.valueOf values p)).toList

/-- What is spliced in front of the placeholder with number `i`, with its escapes as they are. -/
def splicedBefore (e : Engine) (template : String) (values : List Value) (i : Nat) : List Char :=
  interleave ((e.segments template).take (i + 1)) ((e.renditions template values).take i)

/-- What is spliced behind the placeholder with number `i`, with its escapes as they are. -/
def splicedAfter (e : Engine) (template : String) (values : List Value) (i : Nat) : List Char :=
  interleave ((e.segments template).drop (i + 1)) ((e.renditions template values).drop (i + 1))

theorem spliced_eq_around (hp : p ∈ (e.read template).placeholders) :
    e.spliced template values
      = e.splicedBefore template values p.ordinal ++ (e.rendition p (e.valueOf values p)).toList
        ++ e.splicedAfter template values p.ordinal := by
  have hlength : (e.segments template).length = (e.renditions template values).length + 1 := by
    rw [renditions, List.length_map, length_segments]
  refine interleave_eq_append hlength ?_
  rw [renditions, List.getElem?_map, getElem?_ordinal hp, Option.map_some]

/-! ## Values that agree besides -/

section AgreeBesides

variable {i : Nat} (hagree : AgreeBesides i values values')

include hagree

theorem getElem?_renditions_of_agreeBesides {j : Nat} (hj : j ≠ i) :
    (e.renditions template values)[j]? = (e.renditions template values')[j]? := by
  simp only [renditions, List.getElem?_map]
  refine Option.map_congr fun q hq => ?_
  have hordinal : q.ordinal = j := e.ordinal_of_getElem?_placeholdersIn hq
  rw [valueOf_congr (hordinal ▸ hagree j hj)]

theorem splicedBefore_of_agreeBesides :
    e.splicedBefore template values i = e.splicedBefore template values' i := by
  have htexts : (e.renditions template values).take i = (e.renditions template values').take i := by
    refine List.ext_getElem? fun j => ?_
    rw [List.getElem?_take, List.getElem?_take]
    split
    · rename_i hlt
      exact getElem?_renditions_of_agreeBesides hagree (Nat.ne_of_lt hlt)
    · rfl
  rw [splicedBefore, splicedBefore, htexts]

theorem splicedAfter_of_agreeBesides :
    e.splicedAfter template values i = e.splicedAfter template values' i := by
  have htexts : (e.renditions template values).drop (i + 1)
      = (e.renditions template values').drop (i + 1) := by
    refine List.ext_getElem? fun j => ?_
    rw [List.getElem?_drop, List.getElem?_drop]
    exact getElem?_renditions_of_agreeBesides hagree (by omega)
  rw [splicedAfter, splicedAfter, htexts]

end AgreeBesides

/-! ## The text of a query around a placeholder -/

section Text

variable (hvalid : (e.read template).IsValid) (hp : p ∈ (e.read template).placeholders)

include hvalid hp

theorem toList_text_fill_around (values : List Value) :
    (e.fill template values).text.toList
      = unescape (e.splicedBefore template values p.ordinal
          ++ (e.rendition p (e.valueOf values p)).toList
          ++ e.splicedAfter template values p.ordinal) := by
  rw [toList_text_fill_spliced hvalid, spliced_eq_around hp]

/-- A query tells two values in one place apart, unless what is written for them is the same
without escapes. -/
theorem text_fill_eq_iff_of_sealed (hagree : AgreeBesides p.ordinal values values')
    (hsealed : Sealed (e.rendition p (e.valueOf values p)).toList)
    (hsealed' : Sealed (e.rendition p (e.valueOf values' p)).toList) :
    (e.fill template values).text = (e.fill template values').text
      ↔ unescape (e.rendition p (e.valueOf values p)).toList
        = unescape (e.rendition p (e.valueOf values' p)).toList := by
  rw [← String.toList_inj, toList_text_fill_around hvalid hp, toList_text_fill_around hvalid hp,
    hsealed.unescape_append, hsealed'.unescape_append, splicedBefore_of_agreeBesides hagree,
    splicedAfter_of_agreeBesides hagree, List.append_cancel_right_eq, List.append_cancel_left_eq]

end Text

end Engine

end QueryStencil
