/-
# `QueryStencil.Kind.Builtin` — the kinds that every default registry holds

Free text, a number, a choice among filing forms, and tags, each with the shape
that it has.  Only numbers and tags are particular about their values.
-/
import QueryStencil.Kind.Basic
import QueryStencil.Sql.Rendering

namespace QueryStencil

namespace Refusal

/-- The value is read as no number. -/
def notNumber : Refusal := ⟨"Value must be a number"⟩

/-- The value is neither a text nor a list of tags. -/
def notTags : Refusal := ⟨"Value must be a list or a comma-separated string"⟩

end Refusal

namespace Shape

/-- Free text. -/
def text : Shape where
  word := "TextType"
  standIn := .text ""
  render := Value.literal

/-- Free text, with options that are offered but not enforced. -/
def choice (options : List String) : Shape :=
  { text with word := "ChoiceType", options := some options }

/-- A bare number. -/
def number : Shape where
  word := "NumberType"
  standIn := .int 0
  render := Value.numeral
  refusal? v := if v.readNumber?.isNone then some .notNumber else none

/-- Several texts. -/
def tags : Shape where
  word := "TagsType"
  standIn := .list []
  render := Value.tagList
  refusal? v := if v.tags?.isNone then some .notTags else none

end Shape

/-- The filing forms that the choice offers. -/
def filingForms : List String :=
  ["10-K", "10-Q", "8-K", "4", "13F-HR", "S-1", "DEF 14A", "10-K/A", "10-Q/A", "8-K/A",
   "13D", "13G", "SC 13G", "SC 13D", "3", "5", "6-K", "20-F", "EFFECT", "NT 10-K", "NT 10-Q"]

namespace Kind

/-- Free text, the kind of a placeholder that names none. -/
def freeText : Kind where
  shape := .text
  name := .text "StringInput"
  title := "Text Input"
  expects := "text"

/-- A bare number. -/
def number : Kind where
  shape := .number
  name := .text "NumberInput"
  title := "Number Input"
  expects := "a number"

/-- A single value picked from options. -/
def choice (name : Value) (title : String) (options : List String) : Kind where
  shape := .choice options
  name := name
  title := title
  expects := "a single choice"

/-- A choice among filing forms. -/
def filingForm : Kind := choice (.text "FormTypes") "Form Type" filingForms

/-- Several texts. -/
def tags : Kind where
  shape := .tags
  name := .text "Tags"
  title := "Tags"
  expects := "a list or comma-separated string of tags"

/-- The kinds that every default registry starts with, in this order. -/
def builtins : List Kind := [freeText, number, filingForm, tags]

end Kind

end QueryStencil
