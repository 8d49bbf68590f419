/-
# `QueryStencil.Proofs.Value.Wording` — what a message calls a value

A message about a refused value ends with the value.  `Value.described` says how:
the members of a list or a tuple stand in a row, with a comma and a blank between
them, and any other value stands by itself.  A text is itself there (`Value.bare`),
and further inside it is in quotes (`Value.spelled`).

The library comes to the same by another way (`described_eq_mention`).  It shows
members and entries by functions of their own, and it sees from what came out
whether a tuple has a single member.
-/
import QueryStencil.Engine.Filling

namespace QueryStencil.Value

theorem sizeOf_snd_lt {entries : List (String × Value)} {entry : String × Value}
    (h : entry ∈ entries) : sizeOf entry.2 < sizeOf entries := by
  have hentry := List.sizeOf_lt_of_mem h
  have hsnd : sizeOf entry = 1 + sizeOf entry.1 + sizeOf entry.2 := Prod.mk.sizeOf_spec _ _
  omega

/-- A value inside of another one. -/
def spelled : Value → String
  | .null => "None"
  | .bool true => "True"
  | .bool false => "False"
  | .int n => toString n
  | .real x => x.text
  | .text s => Text.quoted s
  | .list items => "[" ++ ", ".intercalate (items.map spelled) ++ "]"
  | .tuple [v] => "(" ++ spelled v ++ ",)"
  | .tuple items => "(" ++ ", ".intercalate (items.map spelled) ++ ")"
  | .dict entries =>
      "\x7b" ++ ", ".intercalate (entries.map fun entry =>
        Text.quoted entry.1 ++ ": " ++ spelled entry.2) ++ "\x7d"
decreasing_by
  · decreasing_tactic
  · decreasing_tactic
  · decreasing_tactic
  · have hlt := sizeOf_snd_lt ‹entry ∈ entries›
    decreasing_tactic

/-- A value by itself, where a text is not in quotes. -/
def bare : Value → String
  | .text s => s
  | v => v.spelled

/-- A value at the end of a message. -/
def described : Value → String
  | .list items => ", ".intercalate (items.map bare)
  | .tuple items => ", ".intercalate (items.map bare)
  | v => v.bare

theorem quotedItems_eq_map (items : List Value) : quotedItems items = items.map quoted := by
  induction items with
  | nil => rfl
  | cons v vs ih => rw [quotedItems, ih, List.map_cons]

theorem quotedEntries_eq_map (entries : List (String × Value)) :
    quotedEntries entries
      = entries.map fun entry => Text.quoted entry.1 ++ ": " ++ entry.2.quoted := by
  induction entries with
  | nil => rfl
  | cons entry rest ih => rw [quotedEntries, ih, List.map_cons]

/-- A tuple that has more than one member, or none, needs no comma at its end. -/
theorem quoted_tuple {items : List Value} (h : ∀ v, items ≠ [v]) :
    (tuple items).quoted = "(" ++ ", ".intercalate (items.map quoted) ++ ")" := by
  rw [← quotedItems_eq_map]
  match items with
  | [] => rfl
  | [v] => exact absurd rfl (h v)
  | v :: w :: rest => rfl

theorem spelled_eq_quoted (v : Value) : v.spelled = v.quoted := by
  fun_induction spelled v with
  | case1 => rfl
  | case2 => rfl
  | case3 => rfl
  | case4 n => rfl
  | case5 x => rfl
  | case6 s => rfl
  | case7 items ih => rw [quoted, quotedItems_eq_map, List.map_congr_left ih]
  | case8 v ih =>
      rw [ih]
      rfl
  | case9 items hmany ih => rw [quoted_tuple hmany, List.map_congr_left ih]
  | case10 entries ih =>
      have hrow : (entries.map fun entry => Text.quoted entry.1 ++ ": " ++ entry.2.spelled)
          = quotedEntries entries := by
        rw [quotedEntries_eq_map]
        exact List.map_congr_left fun entry hentry => by rw [ih entry hentry]
      rw [hrow, quoted]

theorem bare_eq_display (v : Value) : v.bare = v.display := by
  cases v with
  | text s => rfl
  | _ => exact spelled_eq_quoted _

/-- The library names a value in a message as it should be. -/
theorem described_eq_mention (v : Value) : v.described = v.mention := by
  have hbare : bare = display := funext bare_eq_display
  cases v with
  | list items => rw [described, hbare, mention, items?]
  | tuple items => rw [described, hbare, mention, items?]
  | _ => simp only [described, hbare, mention, items?]

example : mention (.tuple [.text "a", .list [.text "b"], .tuple [.null]])
    = "a, ['b'], (None,)" := by decide +kernel

end QueryStencil.Value
