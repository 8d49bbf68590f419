/-
# `QueryStencil.Decimal.Layout` — how numbers are written

A layout fixes the decisions that the digits leave open: from which exponents
on a number is written with a power of ten, how that power is marked, and the
words for what is not finite.  `Layout.plain` is the one in use: positional
for exponents -4 to 15, a whole number keeps `.0`, and the power of ten has a
sign and at least two digits.
-/
import QueryStencil.Decimal.Shortest

namespace QueryStencil

/-- The open decisions of writing a binary64 number. -/
structure Layout where
  /-- The least exponent of the leading digit that is written positionally. -/
  least : Int
  /-- The least exponent above those that are written positionally. -/
  bound : Int
  /-- What follows a whole number that is written positionally. -/
  wholeEnd : String
  /-- What stands before the power of ten. -/
  mark : Char
  /-- The least number of digits of the power of ten. -/
  powerWidth : Nat
  infinityWord : String
  nanWord : String

/-- Positional for exponents -4 to 15, `.0` after a whole number, `e+16`, `e-05`. -/
def Layout.plain : Layout where
  least := -4
  bound := 16
  wholeEnd := ".0"
  mark := 'e'
  powerWidth := 2
  infinityWord := "inf"
  nanWord := "nan"

namespace Layout

/-- Digits with a point among them; `exponent` is that of the first digit. -/
def positional (l : Layout) (digits : List Char) (exponent : Int) : List Char :=
  if exponent < 0 then
    '0' :: '.' :: List.replicate ((-exponent).toNat - 1) '0' ++ digits
  else
    let width := exponent.toNat + 1
    if digits.length ≤ width then
      digits ++ List.replicate (width - digits.length) '0' ++ l.wholeEnd.toList
    else
      digits.take width ++ '.' :: digits.drop width

/-- A power of ten: mark, sign, and at least `powerWidth` digits. -/
def power (l : Layout) (exponent : Int) : List Char :=
  let digits := exponent.natAbs.repr.toList
  l.mark :: (if exponent < 0 then '-' else '+') ::
    List.replicate (l.powerWidth - digits.length) '0' ++ digits

/-- One digit before the point, and a power of ten. -/
def exponential (l : Layout) (digits : List Char) (exponent : Int) : List Char :=
  let tail := digits.drop 1
  digits.take 1 ++ (if tail.isEmpty then [] else '.' :: tail) ++ l.power exponent

/-- A positive decimal, positionally or with a power of ten. -/
def decimal (l : Layout) (d : Scientific) : List Char :=
  let digits := d.coefficient.repr.toList
  let exponent := d.exponent + (digits.length - 1 : Nat)
  if l.least ≤ exponent && exponent < l.bound then l.positional digits exponent
  else l.exponential digits exponent

/-- A magnitude by its shortest decimal. -/
def magnitude (l : Layout) (m : Magnitude) : List Char :=
  if m.steps = 0 then '0' :: l.wholeEnd.toList else l.decimal (shortest m.steps)

/-- A minus sign in front of what is negative. -/
def signed (negative : Bool) (cs : List Char) : List Char :=
  if negative then '-' :: cs else cs

/-- A binary64 number in this layout. -/
def write (l : Layout) : Binary64 → String
  | .finite negative m => String.ofList (signed negative (l.magnitude m))
  | .infinite negative => String.ofList (signed negative l.infinityWord.toList)
  | .nan => l.nanWord

end Layout

/-- A binary64 number in the plain layout. -/
def Binary64.text (x : Binary64) : String := Layout.plain.write x

end QueryStencil
