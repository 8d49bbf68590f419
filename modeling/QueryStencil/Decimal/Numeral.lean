/-
# `QueryStencil.Decimal.Numeral` — numerals at the start of a text

A numeral is a sign or none, digits with at most one point among or beside
them, and a power of ten or none: `12`, `-3.`, `+.5`, `6e-7`.  The digits may
be those of any script.  `Numeral.scan` takes the longest numeral that a text
starts with; what follows it has no influence, and a power of ten without
digits is not taken.
-/
import QueryStencil.Text.Blank
import QueryStencil.Text.Digit
import QueryStencil.Decimal.Binary64

namespace QueryStencil

open Text

/-- The exact value `± coefficient · 10 ^ exponent`. -/
structure Numeral where
  negative : Bool
  coefficient : Nat
  exponent : Int
deriving DecidableEq

/-- The number that digits stand for, the first one leading. -/
def ofDigits (digits : List Nat) : Nat := digits.foldl (fun n d => 10 * n + d) 0

/-- The longest run of digits at the start, and the rest. -/
def scanDigits : List Char → List Nat × List Char
  | [] => ([], [])
  | c :: cs =>
      match digitValue? c with
      | some d => (d :: (scanDigits cs).1, (scanDigits cs).2)
      | none => ([], c :: cs)

/-- A sign, if there is one: whether it is a minus, and the rest. -/
def scanSign : List Char → Bool × List Char
  | '-' :: cs => (true, cs)
  | '+' :: cs => (false, cs)
  | cs => (false, cs)

/-- Digits, a point, digits: at least one digit, and the point may be missing.
Gives the digits before the point, those after it, and the rest. -/
def scanDecimal (cs : List Char) : Option (List Nat × List Nat × List Char) :=
  match scanDigits cs with
  | ([], '.' :: rest) =>
      match scanDigits rest with
      | ([], _) => none
      | (fraction, rest) => some ([], fraction, rest)
  | ([], _) => none
  | (whole, '.' :: rest) => some (whole, (scanDigits rest).1, (scanDigits rest).2)
  | (whole, rest) => some (whole, [], rest)

/-- A power of ten with at least one digit; without one nothing is taken. -/
def scanPower (cs : List Char) : Int × List Char :=
  match cs with
  | [] => (0, [])
  | mark :: rest =>
      if mark = 'e' || mark = 'E' then
        match scanDigits (scanSign rest).2 with
        | ([], _) => (0, cs)
        | (digits, rest') =>
            (if (scanSign rest).1 then -(ofDigits digits : Int) else ofDigits digits, rest')
      else (0, cs)

namespace Numeral

/-- The longest numeral at the start of a text, and the rest. -/
def scan (cs : List Char) : Option (Numeral × List Char) :=
  match scanDecimal (scanSign cs).2 with
  | none => none
  | some (whole, fraction, rest) =>
      some (⟨(scanSign cs).1, ofDigits (whole ++ fraction),
        (scanPower rest).1 - fraction.length⟩, (scanPower rest).2)

/-- The nearest binary64 number.  A value that is far above the largest number,
or far below the least, is settled by its count of digits. -/
def toBinary64 (n : Numeral) : Binary64 :=
  let places : Int := n.coefficient.repr.length + n.exponent
  if n.coefficient = 0 || places < -400 then .finite n.negative .zero
  else if 400 < places then .infinite n.negative
  else .ofRatio n.negative (n.coefficient * tenTo n.exponent.toNat) (tenTo (-n.exponent).toNat)

end Numeral

/-- The numeral that a text starts with, white space in front of it left out. -/
def leadingNumeral? (s : String) : Option Numeral :=
  (Numeral.scan (s.toList.dropWhile isWhiteSpace)).map (·.1)

end QueryStencil
