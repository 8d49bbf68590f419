/-
# `QueryStencil.Proofs.Saved.Sync` — values that follow their template fill it alike

A place without a value is filled twice over in this library.  When a list of
values is brought to the length of its template, a new place is seeded, by the
default of its placeholder or by an empty text; and when a template is filled,
the default stands in wherever a value is absent, null or empty.

The two agree (`fill_syncWith`): a seed is either what would stand in anyway,
or it counts as missing and something else stands in for it.  Nothing is
assumed about the default itself.  It may be missing too, as it is for a kind
that was taken out of the registry, or be refused by the kind.
-/
import QueryStencil.Proofs.Engine.LeftToRight
import QueryStencil.Saved.Sync

namespace QueryStencil

open Template

namespace Reading

variable (r : Reading) (standIn : Placeholder → Value) (values : List Value)

theorem length_syncWith : (r.syncWith standIn values).length = r.placeholders.length := by
  simp only [syncWith, List.length_append, List.length_take, List.length_map, List.length_drop]
  omega

/-- Where a value is, it stays, and elsewhere something stands in. -/
theorem getElem?_syncWith {k : Nat} {p : Placeholder} (h : r.placeholders[k]? = some p) :
    (r.syncWith standIn values)[k]? = some (values[k]?.getD (standIn p)) := by
  have hk : k < r.placeholders.length := (List.getElem?_eq_some_iff.mp h).1
  rcases Nat.lt_or_ge k values.length with hv | hv
  · have hin : k < (values.take r.placeholders.length).length := by
      rw [List.length_take]
      omega
    rw [syncWith, List.getElem?_append_left hin, List.getElem?_take_of_lt hk,
      List.getElem?_eq_getElem hv]
    rfl
  · have hall : values.take r.placeholders.length = values := List.take_of_length_le (by omega)
    have hplace : values.length + (k - values.length) = k := by omega
    rw [syncWith, hall, List.getElem?_append_right hv, List.getElem?_map, List.getElem?_drop,
      hplace, h, List.getElem?_eq_none hv]
    rfl

/-- A list that has its length already is left alone. -/
theorem syncWith_of_length_eq (h : values.length = r.placeholders.length) :
    r.syncWith standIn values = values := by
  rw [syncWith, h, List.drop_length, ← h, List.take_length, List.map_nil, List.append_nil]

theorem syncWith_nil : r.syncWith standIn [] = r.placeholders.map standIn := by
  rw [syncWith, List.take_nil, List.nil_append, List.length_nil, List.drop_zero]

end Reading

namespace Engine

variable {e : Engine} {template : String} {standIn : Placeholder → Value}

/-- Seeds that leave the choice to the engine: what it would take, or nothing that counts. -/
def Defers (e : Engine) (standIn : Placeholder → Value) : Prop :=
  ∀ p, standIn p = e.standIn p ∨ (standIn p).IsMissing

theorem defers_standIn (e : Engine) : e.Defers e.standIn := fun _ => .inl rfl

theorem defers_blank (e : Engine) : e.Defers fun _ => .text "" := fun _ => .inr (.inr rfl)

/-- A seeded place has the value that it would have had without a seed. -/
theorem valueOf_syncWith (h : e.Defers standIn) (values : List Value) {p : Placeholder}
    (hp : p ∈ (e.read template).placeholders) :
    e.valueOf ((e.read template).syncWith standIn values) p = e.valueOf values p := by
  obtain ⟨k, hk⟩ := List.mem_iff_getElem?.mp hp
  have hordinal : p.ordinal = k := e.ordinal_of_getElem?_placeholdersIn hk
  rw [valueOf, valueOf, hordinal, Reading.getElem?_syncWith _ _ _ hk, Option.getD_some]
  cases values[k]? with
  | some v => rfl
  | none =>
      show (if (standIn p).IsMissing then e.standIn p else standIn p) = e.standIn p
      rcases h p with hsame | hmissing
      · rw [hsame, ite_self]
      · rw [if_pos hmissing]

theorem fill_syncWith (h : e.Defers standIn) (values : List Value) :
    e.fill template ((e.read template).syncWith standIn values) = e.fill template values :=
  e.fill_congr fun _ hp => valueOf_syncWith h values hp

/-- A list of values that was brought in line with a template: it has a value
for each placeholder, in place, it makes the same query with the same errors,
and there is nothing left to bring in line. -/
structure InLine (e : Engine) (template : String) (values synced : List Value) : Prop where
  fill_eq : e.fill template synced = e.fill template values
  length_eq : synced.length = (e.read template).placeholders.length
  kept : ∀ i, i < values.length → i < (e.read template).placeholders.length →
    synced[i]? = values[i]?
  sync_eq : e.sync (e.read template) synced = synced
  syncBlank_eq : (e.read template).syncBlank synced = synced

theorem inLine_syncWith (h : e.Defers standIn) (values : List Value) :
    e.InLine template values ((e.read template).syncWith standIn values) where
  fill_eq := fill_syncWith h values
  length_eq := Reading.length_syncWith _ _ _
  kept := by
    intro i hi hlt
    rw [Reading.getElem?_syncWith _ _ _ (List.getElem?_eq_getElem hlt),
      List.getElem?_eq_getElem hi]
    rfl
  sync_eq := Reading.syncWith_of_length_eq _ _ _ (Reading.length_syncWith _ _ _)
  syncBlank_eq := Reading.syncWith_of_length_eq _ _ _ (Reading.length_syncWith _ _ _)

/-- Bringing stored values in line with a template, with defaults or with
empty texts in the new places, changes no query and no error, for whatever
template, registry and settings; and no values at all become the defaults. -/
theorem sync_inLine (e : Engine) (template : String) (values : List Value) :
    let r := e.read template
    e.InLine template values (e.sync r values)
      ∧ e.InLine template values (r.syncBlank values)
      ∧ e.sync r [] = e.standIns r :=
  ⟨inLine_syncWith e.defers_standIn values, inLine_syncWith e.defers_blank values,
    Reading.syncWith_nil _ _⟩

/-- A year is seeded with a text that it refuses, as it would refuse it without the seed. -/
example :
    let template := "\x7bA\x7d \x7bY:Year\x7d"
    let synced := dated.sync (dated.read template) [.text "x"]
    synced = [.text "x", .text ""]
      ∧ dated.fill template synced = dated.fill template [.text "x"]
      ∧ (dated.fill template synced).text = "'x' \x7bY:Year\x7d" := by
  decide +kernel

end Engine

end QueryStencil
