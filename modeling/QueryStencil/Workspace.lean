/-
# `QueryStencil.Workspace` — engines that share registries, and saved queries at hand

A workspace keeps registries, engines and saved queries by name.  Several
engines may use one registry, so engines refer to registries by place: what is
registered through one name is seen through every other that refers to the
same place.
-/
import QueryStencil.Saved.Sync

namespace QueryStencil

/-- What stands under a name: the place of a registry, and the settings of an
engine that uses it, if there is an engine. -/
structure Seat where
  place : Nat
  settings : Option Settings
deriving DecidableEq

/-- Registries by place, seats by name, and saved queries by slot. -/
structure Workspace where
  registries : List Registry := []
  seats : List (String × Seat) := []
  slots : List (String × SavedQuery) := []

/-- The association with `key` bound to `value`, in its place or at the end. -/
def assign {α : Type} (key : String) (value : α) : List (String × α) → List (String × α)
  | [] => [(key, value)]
  | (k, v) :: rest => if k = key then (key, value) :: rest else (k, v) :: assign key value rest

namespace Workspace

/-- The registry under a name. -/
def registry? (w : Workspace) (name : String) : Option Registry :=
  (w.seats.lookup name).bind fun seat => w.registries[seat.place]?

/-- The engine under a name. -/
def engine? (w : Workspace) (name : String) : Option Engine := do
  let seat ← w.seats.lookup name
  let registry ← w.registries[seat.place]?
  let settings ← seat.settings
  pure ⟨registry, settings⟩

/-- A registry of its own under a name, for an engine or for none. -/
def addRegistry (w : Workspace) (name : String) (r : Registry) (settings : Option Settings) :
    Workspace :=
  { w with
    registries := w.registries ++ [r]
    seats := assign name ⟨w.registries.length, settings⟩ w.seats }

/-- Changes the registry under a name, for all names that share it. -/
def setRegistry (w : Workspace) (name : String) (r : Registry) : Workspace :=
  match w.seats.lookup name with
  | some seat => { w with registries := w.registries.set seat.place r }
  | none => w

/-- An engine with a registry of its own. -/
def openEngine (w : Workspace) (name : String) (more : List Candidate) (settings : Settings) :
    Except RegistryError Workspace :=
  (Engine.build more settings).map fun e => w.addRegistry name e.registry (some e.settings)

/-- An engine under a name that uses the registry under another, without any check. -/
def wireEngine (w : Workspace) (name shared : String) (settings : Settings) : Workspace :=
  match w.seats.lookup shared with
  | some seat => { w with seats := assign name ⟨seat.place, some settings⟩ w.seats }
  | none => w

/-- An engine that uses the registry under another name.  The candidates are
registered there; on an error there is no engine, but what was registered stays. -/
def joinEngine (w : Workspace) (name shared : String) (more : List Candidate)
    (settings : Settings) : Workspace × Option RegistryError :=
  match w.registry? shared with
  | none => (w, none)
  | some r =>
      match r.prepare more settings.fallback with
      | (r', some e) => (w.setRegistry shared r', some e)
      | (r', none) => ((w.setRegistry shared r').wireEngine name shared settings, none)

/-- A saved query in a slot. -/
def setSlot (w : Workspace) (slot : String) (q : SavedQuery) : Workspace :=
  { w with slots := assign slot q w.slots }

/-- The saved query in a slot. -/
def slot? (w : Workspace) (slot : String) : Option SavedQuery := w.slots.lookup slot

/-- Saved queries, each in the slot of its name. -/
def setSlots (w : Workspace) (queries : List (String × SavedQuery)) : Workspace :=
  queries.foldl (fun w entry => w.setSlot entry.1 entry.2) w

end Workspace

end QueryStencil
