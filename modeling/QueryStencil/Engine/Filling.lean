/-
# `QueryStencil.Engine.Filling` — templates filled with values

Values belong to placeholders by position.  Where a value is missing, the
default of the placeholder stands in, and else that of its kind.  A value that
the kind refuses leaves its hole as it stands and is reported; any other is
written in place of the hole.  Filling goes from right to left, so that what
is written never moves a hole that is still to come.  Escapes are undone in
the text as a whole, when all values are in.  A template with mistakes is not
filled at all.
-/
import QueryStencil.Engine.Basic

namespace QueryStencil

open Template

/-- A value that the kind of its placeholder refuses. -/
structure Rejection where
  label : String
  expects : String
  value : Value
deriving DecidableEq

/-- A value as it is named in a message: the members of a list or a tuple with commas between. -/
def Value.mention (v : Value) : String :=
  match v.items? with
  | some items => ", ".intercalate (items.map display)
  | none => v.display

/-- A rejection in words. -/
def Rejection.message (r : Rejection) : String :=
  "Parameter \"" ++ r.label ++ "\" expects " ++ r.expects ++ ", got: " ++ r.value.mention

/-- What keeps a template from being filled, or a hole of it. -/
inductive Complaint where
  | malformed (mistake : Mistake)
  | rejected (rejection : Rejection)
deriving DecidableEq

/-- A complaint in words. -/
def Complaint.message : Complaint → String
  | .malformed m => m.fault.message
  | .rejected r => r.message

/-- A filled template, and what went wrong. -/
structure Filled where
  text : String
  complaints : List Complaint
deriving DecidableEq

namespace Filled

/-- The complaints in words. -/
def errors (f : Filled) : List String := f.complaints.map Complaint.message

end Filled

/-- A template on the way to being filled: the text as it is now, and what was refused so far. -/
structure Draft where
  text : List Char
  rejections : List Rejection

namespace Template

/-- The text with another one over the span of the placeholder. -/
def Placeholder.overwrite (p : Placeholder) (replacement text : List Char) : List Char :=
  text.take p.start ++ replacement ++ text.drop p.stop

end Template

namespace Engine

/-- The value that stands in for a missing one. -/
def standIn (e : Engine) (p : Placeholder) : Value :=
  if p.standIn = "" then e.registry.standIn p.kind else .text p.standIn

/-- The values that stand in for all placeholders of a reading. -/
def standIns (e : Engine) (r : Reading) : List Value := r.placeholders.map e.standIn

/-- The value of a placeholder among values by position. -/
def valueOf (e : Engine) (values : List Value) (p : Placeholder) : Value :=
  let v := values[p.ordinal]?.getD .null
  if v.IsMissing then e.standIn p else v

/-- Why a value is not written in the place of a placeholder, if it is not. -/
def rejection? (e : Engine) (p : Placeholder) (v : Value) : Option Rejection :=
  if e.settings.checks then
    (e.registry.find? p.kind).bind fun k =>
      if (k.refusal? v).isSome then some ⟨p.label, k.expects, v⟩ else none
  else none

/-- Writes the value of a placeholder over its span, or reports the value and leaves the span. -/
def write (e : Engine) (values : List Value) (d : Draft) (p : Placeholder) : Draft :=
  let v := e.valueOf values p
  match e.rejection? p v with
  | some r => { d with rejections := d.rejections ++ [r] }
  | none => { d with text := p.overwrite (e.registry.render p.kind v).toList d.text }

/-- Fills a template, from right to left. -/
def fill (e : Engine) (template : String) (values : List Value) : Filled :=
  let reading := e.read template
  if reading.IsValid then
    let draft := reading.placeholders.reverse.foldl (e.write values) ⟨template.toList, []⟩
    { text := String.ofList (unescape draft.text)
      complaints := draft.rejections.map .rejected }
  else
    { text := template
      complaints := reading.mistakes.map .malformed }

end Engine

end QueryStencil
