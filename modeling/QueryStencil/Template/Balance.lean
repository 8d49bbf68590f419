/-
# `QueryStencil.Template.Balance` — braces without a partner

Unescaped braces pair up like parentheses.  `strays` reports, by offset, each
closing brace that has nothing to close, and then one opening brace: the one
from which on the braces stay open to the end.
-/
import QueryStencil.Template.Escape

namespace QueryStencil.Template

/-- A brace without a partner, by its offset. -/
inductive Stray where
  | closer (offset : Nat)
  | opener (offset : Nat)
deriving DecidableEq

/-- The stray braces of a text that starts at `offset`, with `depth` braces
open before it, the outermost of them at `outer`.  `escaped` says that a
backslash stands directly before the text. -/
def straysFrom (offset depth outer : Nat) (escaped : Bool) : List Char → List Stray
  | [] => if depth = 0 then [] else [.opener outer]
  | c :: cs =>
      if escaped = false ∧ c = '{' then
        straysFrom (offset + 1) (depth + 1) (if depth = 0 then offset else outer) false cs
      else if escaped = false ∧ c = '}' then
        match depth with
        | 0 => .closer offset :: straysFrom (offset + 1) 0 outer false cs
        | inner + 1 => straysFrom (offset + 1) inner outer false cs
      else straysFrom (offset + 1) depth outer (c = '\\') cs

/-- The stray braces of a template. -/
def strays (template : String) : List Stray := straysFrom 0 0 0 false template.toList

end QueryStencil.Template
