/-
# `QueryStencil.Value.Display` — values as text

`quoted` shows a value so that its shape can be seen: texts in quotes, lists
in brackets, tuples in parentheses (a comma after a single member), and
dictionaries in braces.  `display` is the same but for a text, which stands
for itself.
-/
import QueryStencil.Text.Quoted
import QueryStencil.Decimal.Layout
import QueryStencil.Value.Basic

namespace QueryStencil.Value

mutual

/-- A value with texts in quotes. -/
def quoted : Value → String
  | .null => "None"
  | .bool true => "True"
  | .bool false => "False"
  | .int n => n.repr
  | .real x => x.text
  | .text s => Text.quoted s
  | .list items => "[" ++ ", ".intercalate (quotedItems items) ++ "]"
  | .tuple items =>
      match quotedItems items with
      | [only] => "(" ++ only ++ ",)"
      | shown => "(" ++ ", ".intercalate shown ++ ")"
  | .dict entries => "\x7b" ++ ", ".intercalate (quotedEntries entries) ++ "\x7d"

/-- The members of a list or a tuple, each with texts in quotes. -/
def quotedItems : List Value → List String
  | [] => []
  | v :: vs => v.quoted :: quotedItems vs

/-- The entries of a dictionary: key, colon, value. -/
def quotedEntries : List (String × Value) → List String
  | [] => []
  | (key, v) :: rest => (Text.quoted key ++ ": " ++ v.quoted) :: quotedEntries rest

end

/-- A value as text: a text stands for itself. -/
def display : Value → String
  | .text s => s
  | v => v.quoted

end QueryStencil.Value
