/-
# `QueryStencil.Proofs.Template.Printing` — fields and literal text as a template

A template is printed from literal texts with a field between each two of
them.  The texts are escaped, and a field is written with its label, its kind
and its default, all three of them.  What can be read back is what trimming
leaves alone and no separator cuts (`Field.Printable`), and then the content of
the printed hole says that field (`ofContent_content`).

Escaped text has no live brace, so there is nothing in it to be read, and a
printed field is a hole from end to end.
-/
import QueryStencil.Proofs.Template.Recast
import QueryStencil.Proofs.Template.Unescape

namespace QueryStencil.Template

/-! ## Printing -/

/-- The text with a backslash before every brace. -/
def escapeText (s : String) : String := String.ofList (escape s.toList)

namespace Field

/-- A field with all its three parts. -/
def printed (f : Field) : String :=
  "\x7b" ++ f.label ++ ":" ++ f.kind ++ ":" ++ f.standIn ++ "\x7d"

/-- A field that can be read back from print: its kind is known, nothing of it
is trimmed away, and it has no separator where one would be taken for the end
of a part. -/
structure Printable (r : Registry) (f : Field) : Prop where
  label_ne : f.label ≠ ""
  label_trim : Text.trim f.label.toList = f.label.toList
  label_braces : BraceFree f.label.toList
  label_colon : ':' ∉ f.label.toList
  kind_mem : f.kind ∈ r
  kind_trim : Text.trim f.kind.toList = f.kind.toList
  kind_braces : BraceFree f.kind.toList
  kind_colon : ':' ∉ f.kind.toList
  standIn_trim : Text.trim f.standIn.toList = f.standIn.toList
  standIn_braces : BraceFree f.standIn.toList
  standIn_end : f.standIn.toList.getLast? ≠ some '\\'

instance (r : Registry) (f : Field) : Decidable (f.Printable r) :=
  decidable_of_iff
    ((f.label ≠ "" ∧ Text.trim f.label.toList = f.label.toList
        ∧ BraceFree f.label.toList ∧ ':' ∉ f.label.toList)
      ∧ (f.kind ∈ r ∧ Text.trim f.kind.toList = f.kind.toList
        ∧ BraceFree f.kind.toList ∧ ':' ∉ f.kind.toList)
      ∧ Text.trim f.standIn.toList = f.standIn.toList
        ∧ BraceFree f.standIn.toList ∧ f.standIn.toList.getLast? ≠ some '\\')
    ⟨fun ⟨⟨a, b, c, d⟩, ⟨a', b', c', d'⟩, b'', c'', d''⟩ =>
        ⟨a, b, c, d, a', b', c', d', b'', c'', d''⟩,
      fun ⟨a, b, c, d, a', b', c', d', b'', c'', d''⟩ =>
        ⟨⟨a, b, c, d⟩, ⟨a', b', c', d'⟩, b'', c'', d''⟩⟩

end Field

/-- A template of literal texts and fields, in turns. -/
def printed (literals : List String) (fields : List Field) : String :=
  String.ofList (interleave (literals.map fun l => escape l.toList)
    (fields.map fun f => f.printed.toList))

/-- The placeholder that a printed field is, in its place. -/
def Field.placedAt (f : Field) (ordinal start : Nat) : Placeholder :=
  { f with ordinal, source := f.printed, start, stop := start + f.printed.length }

theorem toList_escapeText (s : String) : (escapeText s).toList = escape s.toList :=
  String.toList_ofList

theorem toList_printed_field (f : Field) : f.printed.toList = '{' :: f.content ++ ['}'] := by
  simp [Field.printed, Field.content]

theorem printed_nil (literal : String) : printed [literal] [] = escapeText literal := by
  rw [printed, List.map_nil, interleave_nil, List.map_singleton, List.flatten_singleton]
  rfl

theorem printed_cons (literal : String) (literals : List String) (f : Field)
    (fields : List Field) :
    printed (literal :: literals) (f :: fields)
      = escapeText literal ++ (f.printed ++ printed literals fields) := by
  apply String.toList_inj.mp
  simp only [printed, List.map_cons, interleave, String.toList_append, String.toList_ofList,
    toList_escapeText, List.append_assoc]

/-! ## Escaped text -/

theorem pieces_escape (escaped : Bool) (cs : List Char) :
    pieces escaped (escape cs) = (escape cs).map .char := by
  induction cs generalizing escaped with
  | nil => rw [escape, pieces, List.map_nil]
  | cons c cs ih =>
      rw [escape]
      split
      · rename_i hc
        have hback : ¬ ('\\' = '{' ∧ escaped = false) := fun h => absurd h.1 (by decide)
        have hbrace : ¬ (c = '{' ∧ decide ('\\' = '\\') = false) :=
          fun h => absurd h.2 (by decide)
        rw [pieces_char hback, pieces_char hbrace, ih]
        rfl
      · rename_i hc
        have hopen : ¬ (c = '{' ∧ escaped = false) := fun h => hc (.inl h.1)
        rw [pieces_char hopen, ih]
        rfl

theorem holesFrom_map_char (offset : Nat) (cs : List Char) :
    holesFrom offset (cs.map .char) = [] := by
  induction cs generalizing offset with
  | nil => rfl
  | cons c cs ih => exact ih _

theorem holes_escapeText (s : String) : holes (escapeText s) = [] := by
  rw [holes, piecesOf, toList_escapeText, pieces_escape, holesFrom_map_char]

theorem straysFrom_escape (offset outer : Nat) (escaped : Bool) (cs : List Char) :
    straysFrom offset 0 outer escaped (escape cs) = [] := by
  induction cs generalizing offset escaped with
  | nil => rfl
  | cons c cs ih =>
      rw [escape]
      split
      · have hback : escaped = false → ¬ IsBrace '\\' := fun _ => by decide
        have hbrace : decide ('\\' = '\\') = false → ¬ IsBrace c :=
          fun h => absurd h (by decide)
        rw [straysFrom_other hback, straysFrom_other hbrace, ih]
      · rename_i hc
        rw [straysFrom_other fun _ => hc, ih]

theorem strays_escapeText (s : String) : strays (escapeText s) = [] := by
  rw [strays, toList_escapeText, straysFrom_escape]

/-! ## Printed fields -/

namespace Field

variable {r : Registry} {f : Field}

theorem Printable.clean (h : f.Printable r) : f.Clean r where
  label_ne := h.label_ne
  label_trim := h.label_trim
  label_braces := h.label_braces
  label_colon := h.label_colon
  standIn_trim := h.standIn_trim
  standIn_braces := h.standIn_braces
  kind_nameable := ⟨h.kind_mem, h.kind_trim, h.kind_braces, h.kind_colon⟩

theorem Printable.fits_content (h : f.Printable r) : Fits f.content := by
  refine ⟨h.clean.braceFree_content, ?_⟩
  rw [content, escapedAfter_append, escapedAfter, escapedAfter_append, escapedAfter]
  exact escapedAfter_eq_false_iff.mpr h.standIn_end

/-- The content of a printed field says that field. -/
theorem Printable.ofContent_content (h : f.Printable r) (fallback : String) :
    Field.ofContent r fallback f.content = .ok f := by
  have hblank : Text.AllBlank [] := fun c hc => absurd hc List.not_mem_nil
  have hread := h.clean.ofContent_content fallback hblank
  rwa [List.append_nil] at hread

end Field

/-- A printed field is one hole. -/
theorem printed_eq_holeOf (f : Field) : f.printed = holeOf f.content := by
  apply String.toList_inj.mp
  rw [toList_printed_field, holeOf, String.toList_ofList, Piece.source]

theorem holes_printed {r : Registry} {f : Field} (h : f.Printable r) :
    holes f.printed = [⟨0, f.content⟩] := by
  rw [holes, printed_eq_holeOf, piecesOf_holeOf h.fits_content]
  rfl

theorem strays_printed {r : Registry} {f : Field} (h : f.Printable r) : strays f.printed = [] := by
  rw [printed_eq_holeOf, strays_holeOf h.fits_content]

end QueryStencil.Template
