/-
# `QueryStencil.Template.Piece` — a template as characters and holes

A hole is an opening brace, content without any brace, and a closing brace,
where neither of the two braces is escaped.  An escaped brace is one that
stands directly after a backslash.  `pieces` reads a template from left to
right: where a hole starts it takes the hole, and elsewhere one character.
Nothing is lost by that (`flatMap_source_pieces`).
-/
import QueryStencil.Template.Escape

namespace QueryStencil.Template

/-- A hole as a regular expression, for those who search with one. -/
def holePattern : String := "(?<!\\\\)\\\x7b([^\x7b\x7d]*?)(?<!\\\\)\\\x7d"

/-- A single character, or a hole with what stands between its braces. -/
inductive Piece where
  | char (c : Char)
  | hole (content : List Char)
deriving DecidableEq

/-- A piece as it stands in the template. -/
def Piece.source : Piece → List Char
  | .char c => [c]
  | .hole content => '{' :: content ++ ['}']

/-- The content up to the first brace and the text after that brace, if the
brace closes a hole.  `escaped` says that a backslash stands directly before. -/
def closing? (escaped : Bool) : List Char → Option (List Char × List Char)
  | [] => none
  | c :: cs =>
      if c = '{' then none
      else if c = '}' then if escaped then none else some ([], cs)
      else (closing? (c = '\\') cs).map fun found => (c :: found.1, found.2)

theorem eq_of_closing? {escaped : Bool} {cs content rest : List Char}
    (h : closing? escaped cs = some (content, rest)) : cs = content ++ '}' :: rest := by
  induction cs generalizing escaped content with
  | nil => simp [closing?] at h
  | cons c cs ih =>
      simp only [closing?] at h
      split at h
      · simp at h
      · split at h
        · rename_i hc
          split at h
          · simp at h
          · simp_all
        · simp only [Option.map_eq_some_iff, Prod.mk.injEq] at h
          obtain ⟨⟨found, after⟩, hf, rfl, rfl⟩ := h
          simp [ih hf]

theorem length_lt_of_closing? {escaped : Bool} {cs content rest : List Char}
    (h : closing? escaped cs = some (content, rest)) : rest.length < cs.length := by
  simp [eq_of_closing? h]
  omega

/-- The pieces of a text.  `escaped` says that a backslash stands directly before it. -/
def pieces (escaped : Bool) : List Char → List Piece
  | [] => []
  | c :: cs =>
      if c = '{' ∧ escaped = false then
        match _found : closing? false cs with
        | some (content, rest) => .hole content :: pieces false rest
        | none => .char c :: pieces false cs
      else .char c :: pieces (c = '\\') cs
termination_by cs => cs.length
decreasing_by
  · exact Nat.lt_succ_of_lt (length_lt_of_closing? _found)
  · simp
  · simp

/-- The pieces of a template. -/
def piecesOf (template : String) : List Piece := pieces false template.toList

/-- The pieces in order are the text. -/
theorem flatMap_source_pieces (escaped : Bool) (cs : List Char) :
    (pieces escaped cs).flatMap Piece.source = cs := by
  fun_induction pieces escaped cs with
  | case1 => rfl
  | case2 escaped c cs hc content rest h ih =>
      simp [Piece.source, ih, eq_of_closing? h, hc.1]
  | case3 escaped c cs hc h ih => simp [Piece.source, ih]
  | case4 escaped c cs hc ih => simp [Piece.source, ih]

/-- A hole and the offset of its opening brace. -/
structure Hole where
  start : Nat
  content : List Char
deriving DecidableEq

namespace Hole

/-- The offset just after the closing brace. -/
def stop (h : Hole) : Nat := h.start + h.content.length + 2

/-- The hole as it stands in the template. -/
def source (h : Hole) : String := String.ofList (Piece.hole h.content).source

end Hole

/-- The holes among pieces of which the first stands at `offset`. -/
def holesFrom (offset : Nat) : List Piece → List Hole
  | [] => []
  | .char _ :: rest => holesFrom (offset + 1) rest
  | .hole content :: rest =>
      ⟨offset, content⟩ :: holesFrom (offset + content.length + 2) rest

/-- The holes of a template, from left to right. -/
def holes (template : String) : List Hole := holesFrom 0 (piecesOf template)

end QueryStencil.Template
