/-
# `QueryStencil.Saved.Query` — saved queries and their stored form

A saved query is a template with the values last entered for it.  Its stored
form is a dictionary with the keys `query` and `values`, and `name` and
`blueprintId` if there are such.  Stored maps may also hold a bare text for a
query, and `migrate` reads both forms, all of the map or nothing.
-/
import QueryStencil.Value.Display

namespace QueryStencil

/-- A template with the values last entered for it, by position. -/
structure SavedQuery where
  query : String
  values : List Value := []
  /-- What people call the query; null if it has no name. -/
  name : Value := .null
  /-- The blueprint that the query comes from; null if there is none. -/
  blueprintId : Value := .null
deriving DecidableEq

/-- Why stored data is no saved query. -/
inductive SavedQueryError where
  | noQuery
  | valuesNotList
  | notSaved (guid : String) (value : Value)
deriving DecidableEq

/-- An error in words. -/
def SavedQueryError.message : SavedQueryError → String
  | .noQuery => "Saved query requires a string 'query' field"
  | .valuesNotList => "Saved query 'values' must be a list"
  | .notSaved guid value =>
      "Saved query " ++ Text.quoted guid ++ " must be a string or a mapping, got "
        ++ value.shapeName

namespace SavedQuery

/-- The entry of an optional field: none for null. -/
def optionalEntry (key : String) (v : Value) : List (String × Value) :=
  if v = .null then [] else [(key, v)]

/-- The stored form of four fields, in a fixed order. -/
def storedEntries (query values name blueprintId : Value) : List (String × Value) :=
  [("query", query), ("values", values)] ++ optionalEntry "name" name
    ++ optionalEntry "blueprintId" blueprintId

/-- The stored form of a saved query. -/
def toEntries (q : SavedQuery) : List (String × Value) :=
  storedEntries (.text q.query) (.list q.values) q.name q.blueprintId

/-- The saved query of a stored form.  Missing values are no values, and other keys are left out. -/
def ofEntries (entries : List (String × Value)) : Except SavedQueryError SavedQuery :=
  match entries.lookup "query", (entries.lookup "values").getD (.list []) with
  | some (.text query), .list values =>
      .ok
        { query, values
          name := (entries.lookup "name").getD .null
          blueprintId := (entries.lookup "blueprintId").getD .null }
  | some (.text _), _ => .error .valuesNotList
  | _, _ => .error .noQuery

/-- The saved query of a bare text or a stored form. -/
def ofStored (guid : String) : Value → Except SavedQueryError SavedQuery
  | .text query => .ok { query }
  | .dict entries => ofEntries entries
  | v => .error (.notSaved guid v)

/-- The saved queries of a stored map in its order, or the error of the first that is none. -/
def migrate (stored : List (String × Value)) :
    Except SavedQueryError (List (String × SavedQuery)) :=
  stored.mapM fun entry => (ofStored entry.1 entry.2).map (entry.1, ·)

/-- The query with another value at a position; negative positions count from the end. -/
def setValue? (q : SavedQuery) (position : Int) (v : Value) : Option SavedQuery :=
  let place := if position < 0 then position + q.values.length else position
  if 0 ≤ place ∧ place < q.values.length then
    some { q with values := q.values.set place.toNat v }
  else none

end SavedQuery

end QueryStencil
