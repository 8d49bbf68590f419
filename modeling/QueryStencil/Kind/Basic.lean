/-
# `QueryStencil.Kind.Basic` — kinds of placeholder values

A kind says how the values of a placeholder behave: which value stands in
when none is supplied, which values are refused, and how a value is written
into the query.  All of this is the shape of the kind, and shapes are open: a
shape brings its own functions, and any functions make a shape.  So a kind may
write values in a way of its own, be particular about them, and even refuse
the value that stands in for it.

The name of a kind is what templates use, and it may be missing or unusable
until the kind is registered.
-/
import QueryStencil.Value.Display

namespace QueryStencil

/-- Why a kind refuses a value, in words. -/
structure Refusal where
  message : String
deriving DecidableEq

/-- How the values of a kind behave. -/
structure Shape where
  /-- The word by which the shape is shown in messages. -/
  word : String
  /-- What a value can be picked from, if that is offered; it is not enforced. -/
  options : Option (List String) := none
  /-- The value that stands in when neither the caller nor the template gives one. -/
  standIn : Value
  /-- A value as query syntax; no value fails. -/
  render : Value → String
  /-- Why a value is refused, if it is. -/
  refusal? : Value → Option Refusal := fun _ => none

/-- A kind of placeholder value. -/
structure Kind extends shape : Shape where
  /-- What templates call the kind; any value may be given. -/
  name : Value
  /-- What people call the kind. -/
  title : String := ""
  /-- Completes "expects …" when a value is refused. -/
  expects : String := "a valid value"

/-- A kind as it is shown in messages. -/
def Kind.shown (k : Kind) : String := k.word ++ "(" ++ k.name.quoted ++ ")"

end QueryStencil
