/-
# `QueryStencil.Template.Escape` — literal braces

A backslash directly before a brace makes the brace literal.  `escape` puts
one before every brace.  `unescape` takes them away again, first those before
opening braces and then, in what is left, those before closing ones.
-/

namespace QueryStencil.Template

/-- An opening or a closing brace. -/
def IsBrace (c : Char) : Prop := c = '{' ∨ c = '}'

instance (c : Char) : Decidable (IsBrace c) := inferInstanceAs (Decidable (_ ∨ _))

/-- A backslash before every brace. -/
def escape : List Char → List Char
  | [] => []
  | c :: cs => if IsBrace c then '\\' :: c :: escape cs else c :: escape cs

/-- The text with `brace` in the place of every backslash and `brace`, from left to right. -/
def layBare (brace : Char) : List Char → List Char
  | [] => []
  | [c] => [c]
  | c :: d :: cs =>
      if c = '\\' ∧ d = brace then brace :: layBare brace cs else c :: layBare brace (d :: cs)

/-- The text with its opening braces laid bare, and then its closing ones. -/
def unescape (cs : List Char) : List Char := layBare '}' (layBare '{' cs)

/-- A text with its literal braces laid bare. -/
def unescapeText (s : String) : String := String.ofList (unescape s.toList)

/-- What an editor shows of a template: the template as it is written. -/
def editorText (template : String) : String := template

end QueryStencil.Template
