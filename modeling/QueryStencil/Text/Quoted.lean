/-
# `QueryStencil.Text.Quoted` — text as it is shown inside a value

Quoted text stands between single quotes, or between double quotes when it
holds a single quote and no double one.  The backslash and the quote in use
are escaped by a backslash, line feed, carriage return and tab by a letter,
and every other unprintable character by its code point in hexadecimal.
-/
import QueryStencil.Text.Printable

namespace QueryStencil.Text

/-- The quote that needs the fewer escapes; the single one if both do. -/
def quoteFor (cs : List Char) : Char :=
  if cs.contains '\'' && !cs.contains '"' then '"' else '\''

/-- The last hexadecimal digits of a number, as many as asked for, in lower case. -/
def hexDigits : Nat → Nat → List Char
  | 0, _ => []
  | width + 1, n => hexDigits width (n / 16) ++ [Nat.digitChar (n % 16)]

/-- A character by its code point: two, four or eight digits, the fewest that hold it. -/
def escapeCode (c : Char) : List Char :=
  if c.toNat < 0x100 then '\\' :: 'x' :: hexDigits 2 c.toNat
  else if c.toNat < 0x10000 then '\\' :: 'u' :: hexDigits 4 c.toNat
  else '\\' :: 'U' :: hexDigits 8 c.toNat

/-- A character as it is shown between two quotes of the form `quote`. -/
def showChar (quote c : Char) : List Char :=
  if c = '\\' || c = quote then ['\\', c]
  else if c = '\n' then ['\\', 'n']
  else if c = '\r' then ['\\', 'r']
  else if c = '\t' then ['\\', 't']
  else if isPrintable c then [c]
  else escapeCode c

/-- Text between quotes, with escapes. -/
def quoted (s : String) : String :=
  let quote := quoteFor s.toList
  String.ofList (quote :: s.toList.flatMap (showChar quote) ++ [quote])

example : quoted "it's" = "\"it's\"" := by decide +kernel

example : quoted "a\n\x1b\"'" = "'a\\n\\x1b\"\\''" := by decide +kernel

end QueryStencil.Text
