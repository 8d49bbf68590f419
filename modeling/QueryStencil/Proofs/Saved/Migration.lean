/-
# `QueryStencil.Proofs.Saved.Migration` — reading a stored map, all of it or nothing

A stored map has saved queries in two forms: bare texts, which say the template
and nothing else, and dictionaries.  Which values are of such a form is told
without reading them (`Value.IsStored`), and so is what is wrong with any other
value (`Value.Misfit`): there is no query in it, or what should be its values is
no list, or it is neither a text nor a dictionary.

`migrate` reads the values one after the other and stops at the first that is of
neither form.  So its outcome is the error of that value, whatever stands behind
it, and if there is none it is a saved query for each value, under the same guid
and in the same order (`migrate_migration`).  Saved queries are written as
dictionaries only, and reading those changes nothing, because a saved query is
what its own dictionary says (`ofEntries_toEntries`).
-/
import QueryStencil.Proofs.Attempts
import QueryStencil.Saved.Query

namespace QueryStencil

/-! ## The two stored forms -/

namespace Value

/-- A value of a form that saved queries are stored in: a bare text, or a
dictionary with a text under `query` and, if there is anything under `values`,
a list there. -/
inductive IsStored : Value → Prop
  | text (query : String) : IsStored (.text query)
  | dict {entries : List (String × Value)} {query : String} :
      entries.lookup "query" = some (.text query) →
      (∀ v, entries.lookup "values" = some v → ∃ items, v = .list items) →
      IsStored (.dict entries)

/-- The saved query that a stored value is: a text is a template without values,
name or blueprint, and a dictionary is read by its keys, of which only `query`
has to be there. -/
inductive Stores : Value → SavedQuery → Prop
  | text (query : String) : Stores (.text query) ⟨query, [], .null, .null⟩
  | dict {entries : List (String × Value)} {query : String} {values : List Value} :
      entries.lookup "query" = some (.text query) →
      (entries.lookup "values").getD (.list []) = .list values →
      Stores (.dict entries) ⟨query, values, (entries.lookup "name").getD .null,
        (entries.lookup "blueprintId").getD .null⟩

/-- What is wrong with a value under a guid.  A dictionary is asked for its query first. -/
inductive Misfit (guid : String) : Value → SavedQueryError → Prop
  | query {entries : List (String × Value)} :
      (∀ query, entries.lookup "query" ≠ some (.text query)) →
      Misfit guid (.dict entries) .noQuery
  | values {entries : List (String × Value)} {query : String} {v : Value} :
      entries.lookup "query" = some (.text query) →
      entries.lookup "values" = some v → (∀ items, v ≠ .list items) →
      Misfit guid (.dict entries) .valuesNotList
  | shape {v : Value} : (∀ query, v ≠ .text query) → (∀ entries, v ≠ .dict entries) →
      Misfit guid v (.notSaved guid v)

end Value

namespace SavedQuery

open Value

/-! ## One stored value -/

section Entries

variable {entries : List (String × Value)} {query : String}

/-- With a query, and values that are a list or missing, a dictionary is a saved query. -/
theorem ofEntries_of_list (hquery : entries.lookup "query" = some (.text query))
    {values : List Value} (hvalues : (entries.lookup "values").getD (.list []) = .list values) :
    ofEntries entries
      = .ok ⟨query, values, (entries.lookup "name").getD .null,
          (entries.lookup "blueprintId").getD .null⟩ := by
  simp only [ofEntries, hquery, hvalues]

theorem ofEntries_of_not_list (hquery : entries.lookup "query" = some (.text query))
    (hvalues : ∀ items, (entries.lookup "values").getD (.list []) ≠ .list items) :
    ofEntries entries = .error .valuesNotList := by
  rw [ofEntries, hquery]
  split
  · rename_i items _ hitems
    exact absurd hitems (hvalues items)
  · rfl
  · rename_i hnone _
    exact absurd rfl (hnone query)

theorem ofEntries_of_not_text (h : ∀ query, entries.lookup "query" ≠ some (.text query)) :
    ofEntries entries = .error .noQuery := by
  rw [ofEntries]
  split
  · rename_i query _ hquery _
    exact absurd hquery (h query)
  · rename_i query hquery _
    exact absurd hquery (h query)
  · rfl

theorem lookup_cons_of_ne {key key' : String} (h : key ≠ key') (v : Value)
    (rest : List (String × Value)) : ((key', v) :: rest).lookup key = rest.lookup key := by
  rw [List.lookup_cons, beq_eq_false_iff_ne.mpr h]

theorem lookup_optionalEntry_of_ne {key key' : String} (h : key ≠ key') (v : Value)
    (rest : List (String × Value)) :
    (optionalEntry key' v ++ rest).lookup key = rest.lookup key := by
  rw [optionalEntry]
  split
  · rfl
  · exact lookup_cons_of_ne h v rest

/-- An optional field is read as it is, null included, if its key does not come again. -/
theorem getD_lookup_optionalEntry {key : String} (v : Value) {rest : List (String × Value)}
    (h : rest.lookup key = none) : ((optionalEntry key v ++ rest).lookup key).getD .null = v := by
  rw [optionalEntry]
  split
  · rename_i hnull
    rw [List.nil_append, h, hnull]
    rfl
  · rw [List.singleton_append, List.lookup_cons_self]
    rfl

/-- A saved query is what its own dictionary says. -/
theorem ofEntries_toEntries (q : SavedQuery) : ofEntries q.toEntries = .ok q := by
  have hoptional : ∀ key, key ≠ "query" → key ≠ "values" → q.toEntries.lookup key
      = (optionalEntry "name" q.name ++ optionalEntry "blueprintId" q.blueprintId).lookup key := by
    intro key hquery hvalues
    rw [toEntries, storedEntries, List.append_assoc]
    exact (lookup_cons_of_ne hquery _ _).trans (lookup_cons_of_ne hvalues _ _)
  have hlast : optionalEntry "blueprintId" q.blueprintId
      = optionalEntry "blueprintId" q.blueprintId ++ [] := (List.append_nil _).symm
  have hname : (q.toEntries.lookup "name").getD .null = q.name := by
    rw [hoptional "name" (by decide) (by decide)]
    refine getD_lookup_optionalEntry q.name ?_
    rw [hlast]
    exact lookup_optionalEntry_of_ne (by decide) _ _
  have hblueprint : (q.toEntries.lookup "blueprintId").getD .null = q.blueprintId := by
    rw [hoptional "blueprintId" (by decide) (by decide),
      lookup_optionalEntry_of_ne (by decide), hlast]
    exact getD_lookup_optionalEntry q.blueprintId rfl
  rw [ofEntries_of_list rfl rfl, hname, hblueprint]

end Entries

variable {guid : String} {v : Value} {q : SavedQuery} {err : SavedQueryError}

theorem ofStored_of_stores (h : Stores v q) : ofStored guid v = .ok q := by
  cases h with
  | text query => rfl
  | dict hquery hvalues => exact ofEntries_of_list hquery hvalues

theorem ofStored_of_misfit (h : Misfit guid v err) : ofStored guid v = .error err := by
  cases h with
  | query hquery => exact ofEntries_of_not_text hquery
  | values hquery hvalues hlist =>
      refine ofEntries_of_not_list hquery ?_
      rw [hvalues]
      exact hlist
  | shape htext hdict =>
      rw [ofStored]
      · exact htext
      · exact hdict

theorem exists_stores (h : v.IsStored) : ∃ q, Stores v q := by
  cases h with
  | text query => exact ⟨_, .text query⟩
  | @dict entries query hquery hvalues =>
      cases hfound : entries.lookup "values" with
      | none => exact ⟨_, .dict hquery (by rw [hfound]; rfl)⟩
      | some w =>
          obtain ⟨items, rfl⟩ := hvalues w hfound
          exact ⟨_, .dict hquery (by rw [hfound]; rfl)⟩

theorem exists_misfit (guid : String) (h : ¬ v.IsStored) : ∃ err, Misfit guid v err := by
  by_cases htext : ∃ query, v = .text query
  · obtain ⟨query, rfl⟩ := htext
    exact absurd (.text query) h
  by_cases hdict : ∃ entries, v = .dict entries
  · obtain ⟨entries, rfl⟩ := hdict
    by_cases hquery : ∃ query, entries.lookup "query" = some (.text query)
    · obtain ⟨query, hquery⟩ := hquery
      by_cases hvalues : ∃ w, entries.lookup "values" = some w ∧ ∀ items, w ≠ .list items
      · obtain ⟨w, hw, hlist⟩ := hvalues
        exact ⟨_, .values hquery hw hlist⟩
      · refine absurd (.dict hquery ?_) h
        intro w hw
        apply Classical.byContradiction
        intro hnone
        exact hvalues ⟨w, hw, fun items hitems => hnone ⟨items, hitems⟩⟩
    · exact ⟨_, .query fun query hfound => hquery ⟨query, hfound⟩⟩
  · exact ⟨_, .shape (fun query hv => htext ⟨query, hv⟩) (fun entries hv => hdict ⟨entries, hv⟩)⟩

/-- A value that is read is of a stored form, since it would be a misfit otherwise. -/
theorem isStored_of_ofStored (h : ofStored guid v = .ok q) : v.IsStored := by
  apply Classical.byContradiction
  intro hnot
  obtain ⟨err, hmisfit⟩ := exists_misfit guid hnot
  cases h.symm.trans (ofStored_of_misfit hmisfit)

theorem ofStored_eq_ok_iff (guid : String) : ofStored guid v = .ok q ↔ Stores v q := by
  constructor
  · intro h
    obtain ⟨q', hstores⟩ := exists_stores (isStored_of_ofStored h)
    obtain rfl := Except.ok.inj (h.symm.trans (ofStored_of_stores hstores))
    exact hstores
  · exact ofStored_of_stores

theorem ofStored_eq_error_iff : ofStored guid v = .error err ↔ Misfit guid v err := by
  constructor
  · intro h
    have hnot : ¬ v.IsStored := by
      intro hstored
      obtain ⟨q, hstores⟩ := exists_stores hstored
      cases h.symm.trans (ofStored_of_stores hstores)
    obtain ⟨err', hmisfit⟩ := exists_misfit guid hnot
    obtain rfl := Except.error.inj (h.symm.trans (ofStored_of_misfit hmisfit))
    exact hmisfit
  · exact ofStored_of_misfit

/-! ## A stored map -/

/-- The saved query of an entry of a stored map, under its guid. -/
def ofEntry (x : String × Value) : Except SavedQueryError (String × SavedQuery) :=
  (ofStored x.1 x.2).map (x.1, ·)

theorem migrate_eq_mapM (stored : List (String × Value)) :
    migrate stored = stored.mapM ofEntry := rfl

variable {x : String × Value}

theorem ofEntry_eq_ok_iff {y : String × SavedQuery} :
    ofEntry x = .ok y ↔ y.1 = x.1 ∧ Stores x.2 y.2 := by
  rw [← ofStored_eq_ok_iff x.1, ofEntry]
  cases ofStored x.1 x.2 with
  | error err => exact iff_of_false (fun h => by cases h) (fun h => by cases h.2)
  | ok q =>
      constructor
      · intro h
        obtain rfl := Except.ok.inj h
        exact ⟨rfl, rfl⟩
      · rintro ⟨hguid, hq⟩
        obtain rfl := Except.ok.inj hq
        exact congrArg Except.ok (Prod.ext hguid.symm rfl)

theorem ofEntry_eq_error_iff : ofEntry x = .error err ↔ Misfit x.1 x.2 err := by
  rw [← ofStored_eq_error_iff, ofEntry]
  cases ofStored x.1 x.2 with
  | error err' =>
      show Except.error err' = Except.error err ↔ Except.error err' = Except.error err
      rw [Except.error.injEq, Except.error.injEq]
  | ok q => exact iff_of_false (fun h => by cases h) (fun h => by cases h)

theorem isStored_iff_exists_ofEntry : x.2.IsStored ↔ ∃ y, ofEntry x = .ok y := by
  constructor
  · intro h
    obtain ⟨q, hstores⟩ := exists_stores h
    exact ⟨(x.1, q), ofEntry_eq_ok_iff.mpr ⟨rfl, hstores⟩⟩
  · rintro ⟨y, hy⟩
    exact isStored_of_ofStored ((ofStored_eq_ok_iff x.1).mpr (ofEntry_eq_ok_iff.mp hy).2)

/-- A map of saved queries in its stored form: a dictionary under each guid. -/
def toStored (queries : List (String × SavedQuery)) : List (String × Value) :=
  queries.map fun y => (y.1, .dict y.2.toEntries)

theorem migrate_toStored (queries : List (String × SavedQuery)) :
    migrate (toStored queries) = .ok queries := by
  rw [migrate_eq_mapM, mapM_eq_ok_iff, toStored, List.forall₂_map_left_iff]
  refine List.forall₂_same.mpr ?_
  intro y _
  exact ofEntry_eq_ok_iff.mpr ⟨rfl, (ofStored_eq_ok_iff y.1).mp (ofEntries_toEntries y.2)⟩

/-- The outcome of reading a stored map: saved queries for all its values, in
order, which are read back from their own stored form; or else the error of
the first value that is of no stored form. -/
structure Migration (stored : List (String × Value))
    (outcome : Except SavedQueryError (List (String × SavedQuery))) : Prop where
  succeeds_iff : (∃ queries, outcome = .ok queries) ↔ ∀ x ∈ stored, x.2.IsStored
  guids_eq : ∀ queries, outcome = .ok queries → queries.map Prod.fst = stored.map Prod.fst
  stores : ∀ queries, outcome = .ok queries → List.Forall₂ (fun x y => Stores x.2 y.2
    ∧ ∀ entries, x.2 = .dict entries → ofEntries entries = .ok y.2) stored queries
  stable : ∀ queries, outcome = .ok queries → migrate (toStored queries) = outcome
  fails_iff : ∀ err, outcome = .error err ↔ ∃ before x after, stored = before ++ x :: after
    ∧ (∀ b ∈ before, b.2.IsStored) ∧ Misfit x.1 x.2 err

/-- Reading a stored map is all or nothing. -/
theorem migrate_migration (stored : List (String × Value)) :
    Migration stored (migrate stored) := by
  have hread : ∀ {queries}, migrate stored = .ok queries →
      List.Forall₂ (fun x y => y.1 = x.1 ∧ Stores x.2 y.2) stored queries := by
    intro queries h
    rw [migrate_eq_mapM, mapM_eq_ok_iff] at h
    exact h.imp fun _ _ => ofEntry_eq_ok_iff.mp
  have hfails : ∀ err, migrate stored = .error err ↔ ∃ before x after,
      stored = before ++ x :: after ∧ (∀ b ∈ before, b.2.IsStored) ∧ Misfit x.1 x.2 err := by
    intro err
    rw [migrate_eq_mapM, mapM_eq_error_iff]
    simp only [← isStored_iff_exists_ofEntry, ofEntry_eq_error_iff]
  constructor
  · rw [migrate_eq_mapM, exists_mapM_eq_ok_iff]
    simp only [isStored_iff_exists_ofEntry]
  · intro queries h
    have hguids : List.Forall₂ (· = ·) (queries.map Prod.fst) (stored.map Prod.fst) := by
      rw [List.forall₂_map_left_iff, List.forall₂_map_right_iff]
      exact (hread h).flip.imp fun _ _ => And.left
    rwa [List.forall₂_eq_eq_eq] at hguids
  · intro queries h
    refine (hread h).imp ?_
    rintro x y ⟨-, hstores⟩
    refine ⟨hstores, ?_⟩
    intro entries hdict
    rw [hdict] at hstores
    exact (ofStored_eq_ok_iff x.1).mpr hstores
  · intro queries h
    rw [migrate_toStored, h]
  · exact hfails

/-- The second value is the first misfit: that the third one is worse does not matter. -/
example :
    migrate [("a", .text "x"), ("b", .dict [("query", .text "y"), ("values", .null)]),
      ("c", .int 4)] = .error .valuesNotList := rfl

end SavedQuery

end QueryStencil
