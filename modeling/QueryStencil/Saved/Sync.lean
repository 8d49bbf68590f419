/-
# `QueryStencil.Saved.Sync` — values that follow their template

When a template is edited, its values are cut or extended to one for each
placeholder.  Values keep their positions, and new places are filled by what
stands in for the placeholder there.
-/
import QueryStencil.Engine.Filling
import QueryStencil.Saved.Query

namespace QueryStencil

open Template

/-- One value for each placeholder: those that are there, then what stands in. -/
def Reading.syncWith (r : Reading) (standIn : Placeholder → Value) (values : List Value) :
    List Value :=
  values.take r.placeholders.length ++ (r.placeholders.drop values.length).map standIn

namespace Engine

/-- One value for each placeholder; new places get the defaults. -/
def sync (e : Engine) (r : Reading) (values : List Value) : List Value :=
  r.syncWith e.standIn values

end Engine

/-- One value for each placeholder; new places stay empty. -/
def Reading.syncBlank (r : Reading) (values : List Value) : List Value :=
  r.syncWith (fun _ => .text "") values

end QueryStencil
