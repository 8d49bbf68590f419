/-
# `QueryStencil.Proofs.Template.Recast` — other content in the holes of a template

To refill a template is to write other contents into its holes, from left to
right, and to keep what stands between them.  If the new contents fit, with no
brace in them and no backslash at their end, a template that was refilled is
read as the same pieces with the new contents (`piecesOf_refilled`), and it has
no stray braces if there were none (`strays_refilled`).  To recast it is to
refill it with what its contents are changed to (`recast_eq_refilled`).

The first two are inductions on the pieces.  A hole is closed where its new
content ends, and leaves the depth as it was.  A character is read as before:
whether an opening brace starts a hole shows at the next brace, and up to the
next hole nothing has changed, while a hole begins with a brace that closes
nothing (`closing?_refill`).

What fits can also make a hole that is a template by itself (`piecesOf_holeOf`).

Offsets are left behind by all this.  So the text between holes is told by the
pieces as well (`stretches`), and it is what the spans of the holes cut out
(`gaps_holesFrom`).
-/
import QueryStencil.Proofs.Template.Concat
import QueryStencil.Proofs.Template.Field
import QueryStencil.Proofs.Template.Interleave

namespace QueryStencil.Template

/-! ## Contents and stretches -/

/-- The content of the piece, if it is a hole. -/
def Piece.content? : Piece → Option (List Char)
  | .char _ => none
  | .hole content => some content

/-- The contents of holes among pieces. -/
def contents (ps : List Piece) : List (List Char) := ps.filterMap Piece.content?

/-- The characters before, between and after holes. -/
def stretches : List Piece → List (List Char)
  | [] => [[]]
  | .char c :: ps => (stretches ps).modifyHead (c :: ·)
  | .hole _ :: ps => [] :: stretches ps

theorem contents_char (c : Char) (ps : List Piece) : contents (.char c :: ps) = contents ps :=
  List.filterMap_cons_none rfl

theorem contents_hole (content : List Char) (ps : List Piece) :
    contents (.hole content :: ps) = content :: contents ps :=
  List.filterMap_cons_some rfl

theorem exists_stretches_eq_cons (ps : List Piece) :
    ∃ first rest, stretches ps = first :: rest := by
  induction ps with
  | nil => exact ⟨[], [], rfl⟩
  | cons p ps ih =>
      cases p with
      | hole content => exact ⟨[], stretches ps, rfl⟩
      | char c =>
          obtain ⟨first, rest, heq⟩ := ih
          exact ⟨c :: first, rest, by rw [stretches, heq, List.modifyHead_cons]⟩

/-- Pieces are their stretches with the holes between them. -/
theorem flatMap_source_eq_interleave (ps : List Piece) :
    ps.flatMap Piece.source
      = interleave (stretches ps)
          ((contents ps).map fun content => (Piece.hole content).source) := by
  induction ps with
  | nil => rfl
  | cons p ps ih =>
      rw [List.flatMap_cons, ih]
      cases p with
      | hole content => rw [contents_hole, List.map_cons, stretches, interleave, List.nil_append]
      | char c =>
          obtain ⟨first, rest, heq⟩ := exists_stretches_eq_cons ps
          rw [contents_char, stretches, heq, List.modifyHead_cons]
          exact (interleave_append_cons [c] first rest _).symm

theorem map_content_holesFrom (offset : Nat) (ps : List Piece) :
    (holesFrom offset ps).map Hole.content = contents ps := by
  fun_induction holesFrom offset ps with
  | case1 => rfl
  | case2 offset c rest ih => rw [contents_char, ih]
  | case3 offset content rest ih => rw [contents_hole, List.map_cons, ih]

/-- What precedes a text is before its first span. -/
theorem gaps_append_shiftSpan (cs ds : List Char) (spans : List (Nat × Nat)) :
    gaps (cs ++ ds) 0 (spans.map (shiftSpan cs.length))
      = (gaps ds 0 spans).modifyHead (cs ++ ·) := by
  cases spans with
  | nil => rfl
  | cons span spans =>
      have hgap : slice (cs ++ ds) 0 (cs.length + span.1) = cs ++ slice ds 0 span.1 := by
        rw [slice, List.take_length_add_append]
        rfl
      rw [List.map_cons, shiftSpan, gaps, gaps, gaps_shiftSpan, hgap, List.modifyHead_cons]

/-- The spans of the holes from some offset on, by those from zero on. -/
theorem map_span_holesFrom (n : Nat) (ps : List Piece) :
    (holesFrom n ps).map (fun h => (h.start, h.stop))
      = ((holesFrom 0 ps).map fun h => (h.start, h.stop)).map (shiftSpan n) := by
  have hshift : holesFrom n ps = (holesFrom 0 ps).map (Hole.shift n) := holesFrom_shift n 0 ps
  rw [hshift, List.map_map, List.map_map]
  refine List.map_congr_left fun h _ => ?_
  simp only [Function.comp_apply, shiftSpan, Hole.shift, Hole.stop, Nat.add_assoc]

/-- What the spans of the holes leave of a text is its stretches. -/
theorem gaps_holesFrom (ps : List Piece) :
    gaps (ps.flatMap Piece.source) 0 ((holesFrom 0 ps).map fun h => (h.start, h.stop))
      = stretches ps := by
  induction ps with
  | nil => rfl
  | cons p ps ih =>
      rw [List.flatMap_cons]
      cases p with
      | char c =>
          have hspans := map_span_holesFrom [c].length ps
          have hrest := gaps_append_shiftSpan [c] (ps.flatMap Piece.source)
            ((holesFrom 0 ps).map fun h => (h.start, h.stop))
          rw [← hspans, ih] at hrest
          exact hrest
      | hole content =>
          have hlength : (Piece.hole content).source.length = content.length + 2 := by
            simp [Piece.source]
          have hspans := map_span_holesFrom (Piece.hole content).source.length ps
          have hrest := gaps_shiftSpan (Piece.hole content).source (ps.flatMap Piece.source) 0
            ((holesFrom 0 ps).map fun h => (h.start, h.stop))
          rw [← hspans, hlength] at hrest
          rw [holesFrom, stretches, ← ih, ← hrest, List.map_cons, gaps, Hole.stop, Nat.zero_add]
          rfl

/-! ## Content that fits -/

/-- What can stand in a hole: no brace, and no backslash at the end. -/
structure Fits (content : List Char) : Prop where
  braceFree : BraceFree content
  back : escapedAfter false content = false

theorem fits_of_closing? {cs content rest : List Char}
    (h : closing? false cs = some (content, rest)) : Fits content :=
  ⟨not_isBrace_of_closing? h, escapedAfter_of_closing? h⟩

/-- What stands in a hole fits. -/
theorem fits_of_mem_contents {escaped : Bool} {cs content : List Char}
    (h : content ∈ contents (pieces escaped cs)) : Fits content := by
  fun_induction pieces escaped cs with
  | case1 => exact absurd h List.not_mem_nil
  | case2 escaped c cs hc found rest hf ih =>
      rw [contents_hole] at h
      rcases List.mem_cons.mp h with rfl | h
      · exact fits_of_closing? hf
      · exact ih h
  | case3 escaped c cs hc hf ih => exact ih (contents_char c _ ▸ h)
  | case4 escaped c cs hc ih => exact ih (contents_char c _ ▸ h)

/-- Whatever has no brace in it fits with a blank behind it, a backslash at its end included. -/
theorem BraceFree.fits_append_blank {content : List Char} (h : BraceFree content) :
    Fits (content ++ [' ']) := by
  have hblank : BraceFree [' '] := by decide
  exact ⟨h.append hblank, escapedAfter_concat false content ' '⟩

theorem Fits.closing?_eq {content : List Char} (h : Fits content) (rest : List Char) :
    closing? false (content ++ '}' :: rest) = some (content, rest) := by
  rw [closing?_append rest false h.braceFree, h.back]
  rfl

/-- A template that is one hole. -/
def holeOf (content : List Char) : String := String.ofList (Piece.hole content).source

theorem piecesOf_holeOf {content : List Char} (h : Fits content) :
    piecesOf (holeOf content) = [.hole content] := by
  rw [piecesOf, holeOf, String.toList_ofList, Piece.source, List.cons_append,
    pieces_hole (h.closing?_eq []), pieces]

theorem strays_holeOf {content : List Char} (h : Fits content) : strays (holeOf content) = [] := by
  rw [strays, holeOf, String.toList_ofList, Piece.source, List.cons_append,
    straysFrom_hole h.braceFree h.back]
  rfl

/-! ## Other content -/

theorem flatMap_source_char (c : Char) (ps : List Piece) :
    (Piece.char c :: ps).flatMap Piece.source = c :: ps.flatMap Piece.source := rfl

theorem flatMap_source_hole (content : List Char) (ps : List Piece) :
    (Piece.hole content :: ps).flatMap Piece.source
      = '{' :: (content ++ '}' :: ps.flatMap Piece.source) := by
  simp [Piece.source]

/-- The pieces with other contents in the holes, from left to right; where these run out, holes
keep their own. -/
def refill : List Piece → List (List Char) → List Piece
  | [], _ => []
  | .char c :: ps, new => .char c :: refill ps new
  | .hole content :: ps, new => .hole (new.headD content) :: refill ps new.tail

/-- The template with other contents in its holes. -/
def refilled (new : List (List Char)) (template : String) : String :=
  String.ofList ((refill (piecesOf template) new).flatMap Piece.source)

theorem contents_refill {ps : List Piece} {new : List (List Char)}
    (h : new.length = (contents ps).length) : contents (refill ps new) = new := by
  induction ps generalizing new with
  | nil => exact (List.length_eq_zero_iff.mp h).symm
  | cons p ps ih =>
      cases p with
      | char c =>
          rw [contents_char] at h
          rw [refill, contents_char, ih h]
      | hole content =>
          rw [contents_hole] at h
          cases new with
          | nil => exact absurd h (Nat.succ_ne_zero _).symm
          | cons first new =>
              rw [refill, contents_hole, List.tail_cons, ih (Nat.succ.inj h)]
              rfl

theorem stretches_refill (ps : List Piece) (new : List (List Char)) :
    stretches (refill ps new) = stretches ps := by
  induction ps generalizing new with
  | nil => rfl
  | cons p ps ih => cases p <;> rw [refill, stretches, stretches, ih]

section Reading

variable {new : List (List Char)} {escaped : Bool} {cs : List Char}

theorem Fits.headD {content : List Char} (h : Fits content) (hfits : ∀ other ∈ new, Fits other) :
    Fits (new.headD content) := by
  cases new with
  | nil => exact h
  | cons first new => exact hfits first List.mem_cons_self

/-- A brace that opens no hole does not open one when holes get other content. -/
theorem closing?_refill (h : closing? escaped cs = none) (new : List (List Char)) :
    closing? escaped ((refill (pieces escaped cs) new).flatMap Piece.source) = none := by
  fun_induction pieces escaped cs with
  | case1 => rfl
  -- the next brace is the opening one of a hole, whatever the hole has in it
  | case2 escaped c cs hc content rest hf ih => rfl
  | case3 escaped c cs hc hf ih =>
      obtain ⟨rfl, rfl⟩ := hc
      rfl
  | case4 escaped c cs hc ih =>
      rw [refill, flatMap_source_char]
      rw [closing?] at h ⊢
      by_cases hopen : c = '{'
      · rw [if_pos hopen]
      · rw [if_neg hopen] at h ⊢
        by_cases hclose : c = '}'
        · rw [if_pos hclose] at h ⊢
          cases escaped with
          | true => rfl
          | false => exact absurd h (Option.some_ne_none _)
        · rw [if_neg hclose, Option.map_eq_none_iff] at h ⊢
          exact ih h

/-- Pieces with other contents that fit are read again. -/
theorem pieces_refill (hfits : ∀ content ∈ new, Fits content) :
    pieces escaped ((refill (pieces escaped cs) new).flatMap Piece.source)
      = refill (pieces escaped cs) new := by
  fun_induction pieces escaped cs generalizing new with
  | case1 escaped =>
      show pieces escaped [] = []
      rw [pieces]
  | case2 escaped c cs hc content rest hf ih =>
      obtain ⟨rfl, rfl⟩ := hc
      have hfirst := (fits_of_closing? hf).headD hfits
      rw [refill, flatMap_source_hole, pieces_hole (hfirst.closing?_eq _),
        ih fun content hmem => hfits content (List.mem_of_mem_tail hmem)]
  | case3 escaped c cs hc hf ih =>
      obtain ⟨rfl, rfl⟩ := hc
      rw [refill, flatMap_source_char, pieces_open (closing?_refill hf new), ih hfits]
  | case4 escaped c cs hc ih => rw [refill, flatMap_source_char, pieces_char hc, ih hfits]

/-- Where the braces balance they still do when holes get other contents that fit, wherever
they stand now. -/
theorem straysFrom_refill (hfits : ∀ content ∈ new, Fits content)
    {offset depth outer : Nat} (h : straysFrom offset depth outer escaped cs = [])
    (offset' outer' : Nat) :
    straysFrom offset' depth outer' escaped
      ((refill (pieces escaped cs) new).flatMap Piece.source) = [] := by
  fun_induction pieces escaped cs generalizing new offset depth outer offset' outer' with
  | case1 =>
      cases depth with
      | zero => rfl
      | succ inner => exact absurd h (List.cons_ne_nil _ _)
  | case2 escaped c cs hc content rest hf ih =>
      obtain ⟨rfl, rfl⟩ := hc
      obtain rfl := eq_of_closing? hf
      have hold := fits_of_closing? hf
      have hfirst := hold.headD hfits
      rw [straysFrom_hole hold.braceFree hold.back] at h
      rw [refill, flatMap_source_hole, straysFrom_hole hfirst.braceFree hfirst.back]
      exact ih (fun content hmem => hfits content (List.mem_of_mem_tail hmem)) h _ _
  | case3 escaped c cs hc hf ih =>
      obtain ⟨rfl, rfl⟩ := hc
      rw [straysFrom_opener] at h
      rw [refill, flatMap_source_char, straysFrom_opener]
      exact ih hfits h _ _
  | case4 escaped c cs hc ih =>
      rw [refill, flatMap_source_char]
      rcases live_cases escaped c with ⟨rfl, rfl⟩ | ⟨rfl, rfl⟩ | hother
      · exact absurd ⟨rfl, rfl⟩ hc
      · cases depth with
        | zero =>
            rw [straysFrom_closer_zero] at h
            exact absurd h (List.cons_ne_nil _ _)
        | succ inner =>
            rw [straysFrom_closer_succ] at h ⊢
            exact ih hfits h _ _
      · rw [straysFrom_other hother] at h ⊢
        exact ih hfits h _ _

end Reading

section Refilled

variable {new : List (List Char)} {template : String} (hfits : ∀ content ∈ new, Fits content)

include hfits in
/-- A template with other contents in its holes has the same pieces with the other contents. -/
theorem piecesOf_refilled :
    piecesOf (refilled new template) = refill (piecesOf template) new := by
  rw [refilled, piecesOf, String.toList_ofList]
  exact pieces_refill hfits

include hfits in
theorem strays_refilled (h : strays template = []) : strays (refilled new template) = [] := by
  rw [refilled, strays, String.toList_ofList]
  exact straysFrom_refill hfits h 0 0

end Refilled

/-! ## Content that is changed -/

/-- The piece with other content, if it is a hole. -/
def Piece.mapContent (g : List Char → List Char) : Piece → Piece
  | .char c => .char c
  | .hole content => .hole (g content)

/-- The text of pieces with other content in the holes. -/
def textWith (g : List Char → List Char) (ps : List Piece) : List Char :=
  (ps.map (Piece.mapContent g)).flatMap Piece.source

/-- The template with other content in its holes. -/
def recast (g : List Char → List Char) (template : String) : String :=
  String.ofList (textWith g (piecesOf template))

theorem map_mapContent_eq_refill (g : List Char → List Char) (ps : List Piece) :
    ps.map (Piece.mapContent g) = refill ps ((contents ps).map g) := by
  induction ps with
  | nil => rfl
  | cons p ps ih =>
      rw [List.map_cons, ih]
      cases p with
      | char c =>
          rw [contents_char]
          rfl
      | hole content =>
          rw [contents_hole]
          rfl

theorem contents_map_mapContent (g : List Char → List Char) (ps : List Piece) :
    contents (ps.map (Piece.mapContent g)) = (contents ps).map g := by
  rw [map_mapContent_eq_refill, contents_refill (List.length_map g)]

theorem stretches_map_mapContent (g : List Char → List Char) (ps : List Piece) :
    stretches (ps.map (Piece.mapContent g)) = stretches ps := by
  rw [map_mapContent_eq_refill, stretches_refill]

theorem recast_eq_refilled (g : List Char → List Char) (template : String) :
    recast g template = refilled ((contents (piecesOf template)).map g) template := by
  rw [recast, textWith, map_mapContent_eq_refill, refilled]

/-- What is recast is the stretches of the template with the new holes between them. -/
theorem toList_recast (g : List Char → List Char) (template : String) :
    (recast g template).toList
      = interleave (stretches (piecesOf template))
          ((contents (piecesOf template)).map fun content => (Piece.hole (g content)).source) := by
  rw [recast, String.toList_ofList, textWith, flatMap_source_eq_interleave,
    stretches_map_mapContent, contents_map_mapContent, List.map_map]
  rfl

section Recast

variable {g : List Char → List Char} {template : String}
  (hfits : ∀ content ∈ contents (piecesOf template), Fits (g content))

include hfits in
/-- A template with other content in its holes has the same pieces with the other content. -/
theorem piecesOf_recast :
    piecesOf (recast g template) = (piecesOf template).map (Piece.mapContent g) := by
  rw [recast_eq_refilled, piecesOf_refilled (List.forall_mem_map.mpr hfits),
    map_mapContent_eq_refill]

include hfits in
theorem strays_recast (h : strays template = []) : strays (recast g template) = [] := by
  rw [recast_eq_refilled]
  exact strays_refilled (List.forall_mem_map.mpr hfits) h

end Recast

end QueryStencil.Template
