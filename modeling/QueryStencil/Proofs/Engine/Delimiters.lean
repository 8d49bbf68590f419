/-
# `QueryStencil.Proofs.Engine.Delimiters` — what a valid template does with its braces

A literal brace is written with a backslash, so every other brace of a valid
template should be one end of a placeholder.  Stray braces are there to report
those that are not, and they do not report all of them: a pair of live braces
around a placeholder has depth two in its middle and none at its ends, and a
pair of live braces around an escaped one has no occurrence in it.  Such a
template is valid, and the braces go into the filled text as they are.

`accountsForBraces_iff_oneLevel` says that these two shapes are all: a valid
template has every live brace at one end of exactly one placeholder if and
only if, while a brace is open, the next brace of any kind is the live one
that closes it.
-/
import QueryStencil.Engine.Filling
import QueryStencil.Proofs.Engine.Reading

namespace QueryStencil

open Template

namespace Template

/-- The brace `c` at offset `i` is the opening or the closing one of the placeholder. -/
def Placeholder.Delimits (p : Placeholder) (c : Char) (i : Nat) : Prop :=
  (c = '{' ∧ i = p.start) ∨ (c = '}' ∧ i + 1 = p.stop)

instance (p : Placeholder) (c : Char) (i : Nat) : Decidable (p.Delimits c i) :=
  inferInstanceAs (Decidable (_ ∨ _))

theorem Placeholder.Delimits.span {p : Placeholder} {c : Char} {i : Nat} (hlt : p.start < p.stop)
    (h : p.Delimits c i) : p.start ≤ i ∧ i < p.stop := by
  rcases h with ⟨-, hstart⟩ | ⟨-, hstop⟩
  · omega
  · omega

/-- A live brace at one end of an occurrence is the brace of that end. -/
theorem Placeholder.delimits_of_live {p : Placeholder} {cs : List Char} {c : Char} {i : Nat}
    (hocc : Occurrence cs p.start p.stop) (hlive : LiveAt c cs i)
    (hend : i = p.start ∨ i + 1 = p.stop) : p.Delimits c i := by
  rcases hend with hstart | hstop
  · subst hstart
    exact .inl ⟨hlive.eq hocc.opener, rfl⟩
  · have hclose := hocc.closer
    rw [← hstop, Nat.add_sub_cancel] at hclose
    exact .inr ⟨hlive.eq hclose, hstop⟩

end Template

/-- Every live brace of a text is the opening or the closing one of exactly one placeholder. -/
def Reading.AccountsForBraces (r : Reading) (cs : List Char) : Prop :=
  ∀ i c, IsBrace c → LiveAt c cs i →
    ∃ p ∈ r.placeholders, p.Delimits c i ∧ ∀ q ∈ r.placeholders, q.Delimits c i → q = p

namespace Engine

variable {e : Engine} {template : String}

/-! ## Valid templates -/

theorem strays_of_isValid (h : (e.read template).IsValid) : strays template = [] :=
  List.map_eq_nil_iff.mp (List.append_eq_nil_iff.mp h).2

/-- Nothing of a valid template is a mistake, so its occurrences are its placeholders. -/
theorem occurrence_iff_of_isValid (h : (e.read template).IsValid) {i j : Nat} :
    Occurrence template.toList i j
      ↔ ∃ p ∈ (e.read template).placeholders, p.start = i ∧ p.stop = j := by
  have hmalformed : (e.read template).malformed = [] := by
    rw [Reading.malformed, show (e.read template).mistakes = [] from h]
    rfl
  rw [← e.mem_spans_iff, Reading.spans, hmalformed, List.map_nil, List.append_nil, List.mem_map]
  simp only [Placeholder.span, Prod.mk.injEq]

/-! ## One placeholder for each brace -/

/-- Two placeholders that share an offset are one. -/
theorem placeholder_eq_of_common (h : (e.read template).IsValid) {p q : Placeholder}
    (hp : p ∈ (e.read template).placeholders) (hq : q ∈ (e.read template).placeholders) {i : Nat}
    (hpi : p.start ≤ i ∧ i < p.stop) (hqi : q.start ≤ i ∧ i < q.stop) : p = q := by
  have hoccp := (occurrence_iff_of_isValid h).mpr ⟨p, hp, rfl, rfl⟩
  have hoccq := (occurrence_iff_of_isValid h).mpr ⟨q, hq, rfl, rfl⟩
  have hstart : p.start = q.start := by
    by_cases hne : p.start = q.start
    · exact hne
    · have := hoccp.apart hoccq hne
      omega
  have hinjective : ∀ ⦃a⦄, a ∈ (e.read template).placeholders →
      ∀ ⦃b⦄, b ∈ (e.read template).placeholders → a.start = b.start → a = b :=
    List.Pairwise.forall_of_forall_of_flip (fun _ _ _ => rfl)
      ((e.placeholders_ascend template).imp fun hlt heq => absurd heq (Nat.ne_of_lt hlt))
      ((e.placeholders_ascend template).imp fun hlt heq => absurd heq (Nat.ne_of_gt hlt))
  exact hinjective hp hq hstart

/-- Placeholders are the occurrences, so to account for braces is to delimit them. -/
theorem accountsForBraces_iff_delimited (h : (e.read template).IsValid) :
    (e.read template).AccountsForBraces template.toList ↔ Delimited template.toList := by
  have hlt : ∀ p ∈ (e.read template).placeholders, p.start < p.stop :=
    fun p hp => (e.covers_placeholder template p hp).start_lt
  constructor
  · intro haccounts i c hbrace hlive
    obtain ⟨p, hp, hends, -⟩ := haccounts i c hbrace hlive
    refine ⟨p.start, p.stop, (occurrence_iff_of_isValid h).mpr ⟨p, hp, rfl, rfl⟩, ?_⟩
    exact hends.imp And.right And.right
  · intro hdelimited i c hbrace hlive
    obtain ⟨a, b, hocc, hend⟩ := hdelimited i c hbrace hlive
    obtain ⟨p, hp, rfl, rfl⟩ := (occurrence_iff_of_isValid h).mp hocc
    have hends := Placeholder.delimits_of_live hocc hlive hend
    refine ⟨p, hp, hends, ?_⟩
    intro q hq hqends
    exact placeholder_eq_of_common h hq hp (hqends.span (hlt q hq)) (hends.span (hlt p hp))

/-- A valid template has every live brace at one end of exactly one placeholder
if and only if its braces are on one level. -/
theorem accountsForBraces_iff_oneLevel (h : (e.read template).IsValid) :
    (e.read template).AccountsForBraces template.toList ↔ OneLevel template.toList := by
  rw [accountsForBraces_iff_delimited h]
  exact delimited_iff_oneLevel (strays_of_isValid h)

/-- A placeholder beside escaped braces: every live brace is one of the placeholder's. -/
theorem accountsForBraces_beside_escapes :
    let template := "\x7bA\x7d or \\\x7bB\\\x7d"
    (standard.read template).IsValid
      ∧ (standard.read template).AccountsForBraces template.toList := by
  intro template
  have hvalid : (standard.read template).IsValid := by decide +kernel
  exact ⟨hvalid, (accountsForBraces_iff_oneLevel hvalid).mpr (by decide +kernel)⟩

/-- Braces around a placeholder: the template is valid, the outer braces belong to no
placeholder, and they stand in the filled text. -/
theorem not_accountsForBraces_around :
    let template := "\x7b\x7bA\x7d\x7d"
    (standard.read template).IsValid
      ∧ ¬ (standard.read template).AccountsForBraces template.toList
      ∧ (standard.fill template [.text "x"]).text = "\x7b'x'\x7d" := by
  intro template
  refine ⟨by decide +kernel, ?_, by decide +kernel⟩
  intro h
  have hnone : ∀ p ∈ (standard.read template).placeholders, ¬ p.Delimits '{' 0 := by
    decide +kernel
  obtain ⟨p, hp, hends, -⟩ := h 0 '{' (.inl rfl) (by decide +kernel)
  exact hnone p hp hends

end Engine

end QueryStencil
