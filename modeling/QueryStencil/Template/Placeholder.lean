/-
# `QueryStencil.Template.Placeholder` — what a hole says

The content of a hole is `label`, `label:kind` or `label:kind:default`.  All
three are trimmed; a blank kind means the fallback, and everything after the
second colon is the default, further colons included.  A hole that says
nothing, has no label, or names an unknown kind is a mistake.
-/
import QueryStencil.Registry.Basic
import QueryStencil.Template.Balance
import QueryStencil.Template.Piece

namespace QueryStencil.Template

open Text

/-- What a hole says. -/
structure Field where
  label : String
  kind : String
  /-- The default, empty if the hole gives none. -/
  standIn : String
deriving DecidableEq

/-- A hole that says something, and where it stands. -/
structure Placeholder extends Field where
  /-- How many placeholders stand before it. -/
  ordinal : Nat
  source : String
  start : Nat
  stop : Nat
deriving DecidableEq

/-- What can be wrong in a template. -/
inductive Fault where
  | emptyHole
  | noLabel
  | unknownKind (name : String) (known : List String)
  | strayCloser
  | strayOpener
deriving DecidableEq

/-- A fault in words. -/
def Fault.message : Fault → String
  | .emptyHole => "Empty parameter definition"
  | .noLabel => "Parameter must have a label"
  | .unknownKind name known =>
      "Invalid component type: " ++ name ++ ". Valid types are: " ++ ", ".intercalate known
  | .strayCloser => "Unmatched closing brace"
  | .strayOpener => "Unmatched opening brace"

/-- A fault and the span that it covers. -/
structure Mistake where
  fault : Fault
  start : Nat
  stop : Nat
  source : String
deriving DecidableEq

/-- A mistake in words, with its span. -/
def Mistake.report (m : Mistake) : String :=
  m.fault.message ++ " (at " ++ m.start.repr ++ ":" ++ m.stop.repr ++ ")"

/-- What the content of a hole says, by a registry and the kind of holes that name none. -/
def Field.ofContent (r : Registry) (fallback : String) (content : List Char) :
    Except Fault Field :=
  let label := trim (before ':' content)
  let named := trim (before ':' (after ':' content))
  let kind := if named = [] then fallback else String.ofList named
  if AllBlank content then .error .emptyHole
  else if label = [] then .error .noLabel
  else if named ≠ [] ∧ kind ∉ r then .error (.unknownKind kind r.sortedNames)
  else .ok
    { label := String.ofList label
      kind := kind
      standIn := String.ofList (trim (after ':' (after ':' content))) }

/-- The placeholder that a hole is, as the one of the given ordinal. -/
def Hole.placeholder (h : Hole) (ordinal : Nat) (f : Field) : Placeholder :=
  { f with ordinal, source := h.source, start := h.start, stop := h.stop }

/-- The mistake that a hole is. -/
def Hole.mistake (h : Hole) (fault : Fault) : Mistake :=
  { fault, start := h.start, stop := h.stop, source := h.source }

/-- The mistake that a stray brace is; an opening one covers all that follows it. -/
def Stray.mistake (template : String) : Stray → Mistake
  | .closer offset => ⟨.strayCloser, offset, offset + 1, "\x7d"⟩
  | .opener offset =>
      ⟨.strayOpener, offset, template.length, String.ofList (template.toList.drop offset)⟩

end QueryStencil.Template
