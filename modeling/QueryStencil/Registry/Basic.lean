/-
# `QueryStencil.Registry.Basic` — the kinds that templates can name

A registry holds kinds under distinct names, in the order in which the names
came.  A new kind under a known name takes the place of the old one; a name
that is removed and comes back goes to the end.  A registry also remembers the
kinds it was built from, and `reset` goes back to them.

What is to be registered need not be a kind at all, and the name of a kind
need not be usable: only an entry, a kind with a name that shows, gets in.
-/
import QueryStencil.Kind.Builtin

namespace QueryStencil

/-- What may be offered to a registry: a kind, or a value that is none. -/
inductive Candidate where
  | kind (k : Kind)
  | value (v : Value)

/-- A candidate as it is shown in messages. -/
def Candidate.shown : Candidate → String
  | .kind k => k.shown
  | .value v => v.quoted

/-- A kind under a name that is a text with a character that is not blank. -/
structure Entry where
  name : String
  kind : Kind
  kind_name : kind.name = .text name
  visible : ¬ Text.AllBlank name.toList

/-- Why something cannot be set up. -/
inductive RegistryError where
  | unusableName (candidate : Candidate)
  | unknownFallback (name : String)

/-- An error in words. -/
def RegistryError.message : RegistryError → String
  | .unusableName c => "Cannot register " ++ c.shown ++ ": type_name must be a non-empty string"
  | .unknownFallback name => "Fallback type " ++ Text.quoted name ++ " is not registered"

/-- A kind under its own name, if that name is usable. -/
def Kind.entry? (k : Kind) : Option Entry :=
  match h : k.name with
  | .text name => if visible : Text.AllBlank name.toList then none else some ⟨name, k, h, visible⟩
  | _ => none

/-- The entry that a candidate makes. -/
def Candidate.entry : Candidate → Except RegistryError Entry
  | .kind k =>
      match k.entry? with
      | some e => .ok e
      | none => .error (.unusableName (.kind k))
  | .value v => .error (.unusableName (.value v))

namespace Entry

/-- The entries with `e` in the place of the one of its name, or at the end. -/
def put (e : Entry) : List Entry → List Entry
  | [] => [e]
  | x :: xs => if x.name = e.name then e :: xs else x :: put e xs

/-- A known name keeps its place, a new one goes to the end. -/
theorem map_name_put (e : Entry) (xs : List Entry) :
    (put e xs).map name = if e.name ∈ xs.map name then xs.map name else xs.map name ++ [e.name] := by
  induction xs with
  | nil => simp [put]
  | cons x xs ih =>
      simp only [put]
      by_cases h : x.name = e.name
      · simp [h]
      · have h' : ¬ e.name = x.name := fun he => h he.symm
        simp only [h, if_false, List.map_cons, ih, List.mem_cons, h', false_or]
        split <;> rfl

theorem nodup_map_name_put (e : Entry) {xs : List Entry} (h : (xs.map name).Nodup) :
    ((put e xs).map name).Nodup := by
  rw [map_name_put]
  split
  · exact h
  · rename_i hn
    rw [List.nodup_append]
    refine ⟨h, by simp, ?_⟩
    intro a ha b hb
    simp only [List.mem_singleton] at hb
    subst hb
    exact fun hab => hn (hab ▸ ha)

end Entry

/-- Entries under distinct names, and those that a reset goes back to. -/
structure Registry where
  entries : List Entry
  initial : List Entry
  distinct : (entries.map Entry.name).Nodup

namespace Registry

/-- Nothing registered yet, with the kinds that a reset brings. -/
def bare (initial : List Entry) : Registry := ⟨[], initial, by simp⟩

/-- Inserts an entry, or replaces the one of its name. -/
def put (r : Registry) (e : Entry) : Registry :=
  { r with entries := e.put r.entries, distinct := Entry.nodup_map_name_put e r.distinct }

/-- The registry built from entries; the last one of a name wins. -/
def ofEntries (initial : List Entry) : Registry := initial.foldl put (bare initial)

/-- The registry built from candidates, or the error of the first that is none. -/
def ofCandidates (candidates : List Candidate) : Except RegistryError Registry :=
  (candidates.mapM Candidate.entry).map ofEntries

/-- The built-in kinds and then `more`, which win where names clash. -/
def withBuiltins (more : List Candidate) : Except RegistryError Registry :=
  ofCandidates (Kind.builtins.map .kind ++ more)

/-- Registers a candidate under its name. -/
def register (r : Registry) (c : Candidate) : Except RegistryError Registry :=
  c.entry.map r.put

/-- Registers candidates in order up to the first that fails, and gives its error. -/
def registerAll (r : Registry) : List Candidate → Registry × Option RegistryError
  | [] => (r, none)
  | c :: cs =>
      match r.register c with
      | .ok r' => r'.registerAll cs
      | .error e => (r, some e)

/-- Removes a name; an unknown one is ignored. -/
def erase (r : Registry) (name : String) : Registry :=
  { r with
    entries := r.entries.filter (·.name ≠ name)
    distinct := (List.filter_sublist.map Entry.name).nodup r.distinct }

/-- Back to the kinds that the registry was built from. -/
def reset (r : Registry) : Registry := ofEntries r.initial

/-- The names in the order in which they came. -/
def names (r : Registry) : List String := r.entries.map Entry.name

/-- The names in the order of their code points. -/
def sortedNames (r : Registry) : List String := r.names.mergeSort fun a b => decide (a ≤ b)

/-- The kind under a name. -/
def find? (r : Registry) (name : String) : Option Kind :=
  (r.entries.find? (·.name = name)).map Entry.kind

instance : Membership String Registry := ⟨fun r name => name ∈ r.names⟩

instance (r : Registry) (name : String) : Decidable (name ∈ r) :=
  inferInstanceAs (Decidable (name ∈ r.names))

/-- Whether a value is the name of a kind; only texts can be. -/
def contains (r : Registry) : Value → Bool
  | .text name => name ∈ r
  | _ => false

/-- A value as query syntax, by the kind of that name; as free text if there is none. -/
def render (r : Registry) (name : String) (v : Value) : String :=
  match r.find? name with
  | some k => k.render v
  | none => v.literal

/-- The value that stands in by the kind of that name; an empty text if there is none. -/
def standIn (r : Registry) (name : String) : Value :=
  match r.find? name with
  | some k => k.standIn
  | none => .text ""

/-- Why the kind of that name refuses the value; an unknown kind refuses nothing. -/
def refusal? (r : Registry) (name : String) (v : Value) : Option Refusal :=
  (r.find? name).bind (·.refusal? v)

end Registry

end QueryStencil
