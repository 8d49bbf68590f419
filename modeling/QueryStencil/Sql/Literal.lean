/-
# `QueryStencil.Sql.Literal` — quoted literals of the query language

A literal stands between single quotes, and a quote inside it is written
twice.  `encode` writes the inside of a literal and `literal` the whole.
-/

namespace QueryStencil.Sql

/-- The inside of a literal: every quote is written twice. -/
def encode : List Char → List Char
  | [] => []
  | c :: cs => if c = '\'' then '\'' :: '\'' :: encode cs else c :: encode cs

/-- The literal that stands for a text. -/
def literal (s : String) : String :=
  String.ofList ('\'' :: encode s.toList ++ ['\''])

example : literal "O'Brien" = "'O''Brien'" := by decide +kernel

end QueryStencil.Sql
