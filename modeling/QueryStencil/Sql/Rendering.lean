/-
# `QueryStencil.Sql.Rendering` — values as query syntax

Free text is one literal around the plain text of the value.  Tags are one
literal each, with commas between them, and no tags are the empty literal.  A
number is its own text, and zero where there is no numeric reading.
-/
import QueryStencil.Sql.Literal
import QueryStencil.Text.Segment
import QueryStencil.Value.Display
import QueryStencil.Value.Number

namespace QueryStencil.Value

/-- A value as the inside of a literal: nothing for null, numbers as a query
shows them, the members of a list or a tuple with commas between them. -/
def plainText : Value → String
  | .null => ""
  | .int n => (Number.int n).text
  | .real x => (Number.real x).text
  | .list items => ",".intercalate (items.map display)
  | .tuple items => ",".intercalate (items.map display)
  | v => v.display

/-- A value as free text. -/
def literal (v : Value) : String := Sql.literal v.plainText

/-- The tags of a text: what stands between commas, trimmed, blank ones left out. -/
def tagsOfText (s : String) : List String :=
  (((Text.splitOn ',' s.toList).map Text.trim).filter (· ≠ [])).map String.ofList

/-- A list or a tuple gives a tag per member; other shapes than these and text give none. -/
def tags? : Value → Option (List String)
  | .text s => some (tagsOfText s)
  | v => v.items?.map (·.map display)

/-- Tags as literals with commas between them. -/
def tagLiterals : List String → String
  | [] => Sql.literal ""
  | tags => ",".intercalate (tags.map Sql.literal)

/-- A value as tags. -/
def tagList (v : Value) : String := tagLiterals (v.tags?.getD [])

/-- A value as a number. -/
def numeral (v : Value) : String :=
  match v.readNumber? with
  | some n => n.text
  | none => "0"

end QueryStencil.Value
