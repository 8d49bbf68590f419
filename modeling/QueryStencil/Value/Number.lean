/-
# `QueryStencil.Value.Number` — values read as numbers

A whole number and a finite real are numbers, and a text is read by the
numeral it starts with.  A number is written without a point or a power of
ten if it is whole, and below 10²¹ if it is a real; any other real has its
shortest decimal.
-/
import QueryStencil.Decimal.Layout
import QueryStencil.Decimal.Numeral
import QueryStencil.Value.Basic

namespace QueryStencil

/-- A number: whole and unbounded, or binary64. -/
inductive Number where
  | int (n : Int)
  | real (x : Binary64)
deriving DecidableEq

/-- The whole number that a real is, if it is one below 10²¹. -/
def Binary64.plainInt? : Binary64 → Option Int
  | .finite negative m =>
      if m.isIntegral && m.whole < tenTo 21 then
        some (if negative then -(m.whole : Int) else m.whole)
      else none
  | _ => none

namespace Number

/-- A number as a query shows it. -/
def text : Number → String
  | .int n => n.repr
  | .real x =>
      match x.plainInt? with
      | some n => n.repr
      | none => x.text

end Number

namespace Value

/-- A value that is a number already. -/
def asNumber? : Value → Option Number
  | .int n => some (.int n)
  | .real x => some (.real x)
  | _ => none

/-- A real, unless it is infinite or no number. -/
def finiteReal? (x : Binary64) : Option Number :=
  if x.isFinite then some (.real x) else none

/-- The numeric reading of a value: truth values and containers have none, and
neither has what is not finite. -/
def readNumber? : Value → Option Number
  | .int n => some (.int n)
  | .real x => finiteReal? x
  | .text s => (leadingNumeral? s).bind fun n => finiteReal? n.toBinary64
  | _ => none

end Value

end QueryStencil
