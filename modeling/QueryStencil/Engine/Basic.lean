/-
# `QueryStencil.Engine.Basic` — reading templates

An engine is a registry, the name of the kind for holes that name none, and
whether values are checked.  Reading a template never fails: it gives the
placeholders and all mistakes, those of holes first and those of stray braces
after them.
-/
import QueryStencil.Template.Placeholder

namespace QueryStencil

open Template

/-- How an engine treats holes without a kind, and values that a kind refuses. -/
structure Settings where
  /-- The kind of holes that name none. -/
  fallback : String := "StringInput"
  /-- Whether values are checked before they are written. -/
  checks : Bool := true
deriving DecidableEq

/-- A registry with the settings to use it by. -/
structure Engine where
  registry : Registry
  settings : Settings

/-- A template that was read. -/
structure Reading where
  source : String
  placeholders : List Placeholder
  mistakes : List Mistake
deriving DecidableEq

namespace Reading

/-- No mistakes. -/
def IsValid (r : Reading) : Prop := r.mistakes = []

instance (r : Reading) : Decidable r.IsValid := inferInstanceAs (Decidable (_ = _))

/-- The mistakes in words, without their spans. -/
def messages (r : Reading) : List String := r.mistakes.map (·.fault.message)

end Reading

/-- The registry, prepared for an engine: the candidates are registered, and
then the fallback has to be there.  What was registered before an error stays. -/
def Registry.prepare (r : Registry) (candidates : List Candidate) (fallback : String) :
    Registry × Option RegistryError :=
  match r.registerAll candidates with
  | (r', some e) => (r', some e)
  | (r', none) => (r', if fallback ∈ r' then none else some (.unknownFallback fallback))

namespace Engine

/-- An engine with a registry of its own: the built-in kinds and more. -/
def build (more : List Candidate) (settings : Settings) : Except RegistryError Engine :=
  match Registry.withBuiltins more with
  | .error e => .error e
  | .ok r =>
      if settings.fallback ∈ r then .ok ⟨r, settings⟩
      else .error (.unknownFallback settings.fallback)

/-- What a hole says to this engine. -/
def field (e : Engine) (h : Hole) : Except Fault Field :=
  Field.ofContent e.registry e.settings.fallback h.content

/-- The placeholders among holes, counted from zero. -/
def placeholdersIn (e : Engine) (holes : List Hole) : List Placeholder :=
  (holes.filterMap fun h => (e.field h).toOption.map (h, ·)).mapIdx fun ordinal found =>
    found.1.placeholder ordinal found.2

/-- The mistakes among holes. -/
def mistakesIn (e : Engine) (holes : List Hole) : List Mistake :=
  holes.filterMap fun h =>
    match e.field h with
    | .ok _ => none
    | .error fault => some (h.mistake fault)

/-- Reads a template. -/
def read (e : Engine) (template : String) : Reading where
  source := template
  placeholders := e.placeholdersIn (holes template)
  mistakes := e.mistakesIn (holes template) ++ (strays template).map (Stray.mistake template)

/-- Whether a template has a placeholder, whatever else is wrong with it. -/
def hasPlaceholders (e : Engine) (template : String) : Bool :=
  (holes template).any fun h => (e.field h).toOption.isSome

end Engine

end QueryStencil
