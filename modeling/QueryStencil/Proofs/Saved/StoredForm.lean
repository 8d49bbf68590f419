/-
# `QueryStencil.Proofs.Saved.StoredForm` — reading a stored query undoes writing it, and back

The reader and the writer of saved queries are two functions that share nothing
but four keys.  One direction of their agreement is that a saved query is what
its own dictionary says (`ofEntries_toEntries`), so writing loses nothing and no
two saved queries have the same stored form (`toEntries_injective`).

In the other direction a dictionary may say too much or too little: it may have
other keys, its keys in any order, null for a name, or no values.  What is written
for the saved query that is read from it is its normal form: the dictionary
restricted to the four keys in their order, without nulls, and with values
(`toEntries_of_stores`).  This decides what is read (`ofEntries_decoding`), as the
one saved query with that stored form.
-/
import QueryStencil.Proofs.Saved.Migration

namespace QueryStencil

namespace SavedQuery

open Value

variable {entries entries' : List (String × Value)} {q : SavedQuery} {err : SavedQueryError}

/-! ## Restricting a dictionary -/

/-- The entry under a key, if there is one and it is not null. -/
def item? (entries : List (String × Value)) (key : String) : Option (String × Value) :=
  (entries.lookup key).bind fun v => if v = .null then none else some (key, v)

/-- The entries under the given keys, in the order of the keys and without nulls. -/
def restrict (keys : List String) (entries : List (String × Value)) : List (String × Value) :=
  keys.filterMap (item? entries)

theorem item?_of_lookup {key : String} {v : Value} (h : entries.lookup key = some v)
    (hv : v ≠ .null) : item? entries key = some (key, v) := by
  rw [item?, h, Option.bind_some, if_neg hv]

/-- An optional field is written as it was read, if it was there and not null. -/
theorem optionalEntry_getD_lookup (key : String) (entries : List (String × Value)) :
    optionalEntry key ((entries.lookup key).getD .null) = (item? entries key).toList := by
  rw [optionalEntry, item?]
  cases entries.lookup key with
  | none => rfl
  | some v =>
      rw [Option.getD_some, Option.bind_some]
      split
      · rfl
      · rfl

/-! ## The normal form -/

/-- The keys of stored forms, in the order in which they are written. -/
def storedKeys : List String := ["query", "values", "name", "blueprintId"]

/-- The dictionary with an empty list of values, if there is nothing under that key yet. -/
def completed (entries : List (String × Value)) : List (String × Value) :=
  entries ++ [("values", .list [])]

/-- The dictionary restricted to the stored keys, and completed. -/
def normalForm (entries : List (String × Value)) : List (String × Value) :=
  restrict storedKeys (completed entries)

theorem lookup_values_completed (entries : List (String × Value)) :
    (completed entries).lookup "values" = some ((entries.lookup "values").getD (.list [])) := by
  rw [completed, List.lookup_append]
  cases entries.lookup "values" with
  | none => rfl
  | some v => rfl

theorem lookup_completed_of_ne {key : String} (h : key ≠ "values")
    (entries : List (String × Value)) : (completed entries).lookup key = entries.lookup key := by
  rw [completed, List.lookup_append, lookup_cons_of_ne h, List.lookup_nil, Option.or_none]

/-- What is written for the saved query that a dictionary stores. -/
theorem toEntries_of_stores (h : Stores (.dict entries) q) : q.toEntries = normalForm entries := by
  cases h with
  | @dict _ query values hquery hvalues =>
      have hqueryEntry : item? (completed entries) "query" = some ("query", .text query) := by
        refine item?_of_lookup ?_ Value.noConfusion
        rw [lookup_completed_of_ne (by decide), hquery]
      have hvaluesEntry : item? (completed entries) "values" = some ("values", .list values) := by
        refine item?_of_lookup ?_ Value.noConfusion
        rw [lookup_values_completed, hvalues]
      have hoptional : ∀ key : String, key ≠ "values" →
          (item? (completed entries) key).toList
            = optionalEntry key ((entries.lookup key).getD .null) := by
        intro key hkey
        rw [← optionalEntry_getD_lookup, lookup_completed_of_ne hkey]
      rw [normalForm, restrict, storedKeys, List.filterMap_cons_some hqueryEntry,
        List.filterMap_cons_some hvaluesEntry, List.filterMap_eq_flatMap_toList, List.flatMap_cons,
        List.flatMap_singleton, hoptional "name" (by decide), hoptional "blueprintId" (by decide)]
      rfl

/-! ## What is read -/

theorem toEntries_injective : Function.Injective toEntries := by
  intro q q' h
  apply Except.ok.inj (ε := SavedQueryError)
  rw [← ofEntries_toEntries q, h, ofEntries_toEntries q']

/-- Two dictionaries that agree on the stored keys are read alike. -/
theorem ofEntries_congr (h : ∀ key ∈ storedKeys, entries'.lookup key = entries.lookup key) :
    ofEntries entries' = ofEntries entries := by
  simp only [storedKeys, List.forall_mem_cons] at h
  obtain ⟨hquery, hvalues, hname, hblueprint, -⟩ := h
  rw [ofEntries, ofEntries, hquery, hvalues, hname, hblueprint]

theorem ofStored_dict (guid : String) (entries : List (String × Value)) :
    ofStored guid (.dict entries) = ofEntries entries := rfl

/-- A dictionary that is no saved query has no query, or else no list of values. -/
theorem ofEntries_eq_error_iff :
    ofEntries entries = .error err
      ↔ (err = .noQuery ∧ ∀ query, entries.lookup "query" ≠ some (.text query))
        ∨ (err = .valuesNotList ∧ (∃ query, entries.lookup "query" = some (.text query))
          ∧ ∃ v, entries.lookup "values" = some v ∧ ∀ items, v ≠ .list items) := by
  rw [← ofStored_dict "", ofStored_eq_error_iff]
  constructor
  · intro h
    cases h with
    | query hquery => exact .inl ⟨rfl, hquery⟩
    | values hquery hvalues hlist => exact .inr ⟨rfl, ⟨_, hquery⟩, _, hvalues, hlist⟩
    | shape _ hdict => exact absurd rfl (hdict entries)
  · rintro (⟨rfl, hquery⟩ | ⟨rfl, ⟨query, hquery⟩, v, hvalues, hlist⟩)
    · exact .query hquery
    · exact .values hquery hvalues hlist

/-- A dictionary of the stored form is read as the saved query that is written as its normal
form, and nothing else is read. -/
theorem ofEntries_eq_ok_iff :
    ofEntries entries = .ok q ↔ (Value.dict entries).IsStored ∧ q.toEntries = normalForm entries := by
  rw [← ofStored_dict ""]
  constructor
  · intro h
    have hstores := (ofStored_eq_ok_iff "").mp h
    exact ⟨isStored_of_ofStored h, toEntries_of_stores hstores⟩
  · rintro ⟨hstored, hentries⟩
    obtain ⟨q', hstores⟩ := exists_stores hstored
    obtain rfl : q = q' := toEntries_injective (hentries.trans (toEntries_of_stores hstores).symm)
    exact (ofStored_eq_ok_iff "").mpr hstores

/-- The outcome of reading a dictionary as a saved query.  It is an error if there is no text under
`query`, which is asked for first, or something else than a list under `values`; and if not, the
saved query whose stored form is the normal form of the dictionary.  Nothing but the stored keys
matters, and what is written is read and written again without a change. -/
structure Decoding (entries : List (String × Value)) (outcome : Except SavedQueryError SavedQuery) :
    Prop where
  fails_iff : (∃ err, outcome = .error err)
    ↔ (∀ query, entries.lookup "query" ≠ some (.text query))
      ∨ ∃ v, entries.lookup "values" = some v ∧ ∀ items, v ≠ .list items
  noQuery_iff : outcome = .error .noQuery
    ↔ ∀ query, entries.lookup "query" ≠ some (.text query)
  valuesNotList_iff : outcome = .error .valuesNotList
    ↔ (∃ query, entries.lookup "query" = some (.text query))
      ∧ ∃ v, entries.lookup "values" = some v ∧ ∀ items, v ≠ .list items
  congr : ∀ entries', (∀ key ∈ storedKeys, entries'.lookup key = entries.lookup key) →
    ofEntries entries' = outcome
  reencoded : ∀ q, outcome = .ok q → q.toEntries = normalForm entries
  stable : ∀ q, outcome = .ok q → ofEntries (normalForm entries) = .ok q
    ∧ normalForm (normalForm entries) = normalForm entries

/-- Reading and writing saved queries are inverse to each other, up to the normal form. -/
theorem ofEntries_decoding :
    (∀ q : SavedQuery, ofEntries q.toEntries = .ok q)
      ∧ ∀ entries : List (String × Value), Decoding entries (ofEntries entries) := by
  refine ⟨ofEntries_toEntries, fun entries => ?_⟩
  have hreencoded : ∀ {entries : List (String × Value)} {q : SavedQuery},
      ofEntries entries = .ok q → q.toEntries = normalForm entries :=
    fun h => (ofEntries_eq_ok_iff.mp h).2
  constructor
  · simp only [ofEntries_eq_error_iff]
    constructor
    · rintro ⟨err, ⟨-, hquery⟩ | ⟨-, -, hvalues⟩⟩
      · exact .inl hquery
      · exact .inr hvalues
    · intro h
      by_cases hquery : ∃ query, entries.lookup "query" = some (.text query)
      · refine ⟨.valuesNotList, .inr ⟨rfl, hquery, ?_⟩⟩
        refine h.resolve_left fun hnone => ?_
        obtain ⟨query, hfound⟩ := hquery
        exact hnone query hfound
      · exact ⟨.noQuery, .inl ⟨rfl, fun query hfound => hquery ⟨query, hfound⟩⟩⟩
  · simp [ofEntries_eq_error_iff]
  · simp [ofEntries_eq_error_iff]
  · exact fun _ => ofEntries_congr
  · exact fun _ => hreencoded
  · intro q hq
    have hnormal := hreencoded hq
    have hagain := ofEntries_toEntries q
    rw [hnormal] at hagain
    refine ⟨hagain, ?_⟩
    rw [← hreencoded hagain, hnormal]

/-- Another key, another order, null for the blueprint, and no values. -/
example :
    (ofEntries [("blueprintId", .null), ("name", .text "n"), ("mode", .int 1),
        ("query", .text "x")]).map toEntries
      = .ok [("query", .text "x"), ("values", .list []), ("name", .text "n")] := rfl

end SavedQuery

end QueryStencil
