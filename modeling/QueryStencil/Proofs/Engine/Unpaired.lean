/-
# `QueryStencil.Proofs.Engine.Unpaired` — what a reading says about braces without a partner

After the mistakes of holes a reading has those of single braces.  They are told
by the pairing of the braces (`ReportsUnpaired`): a mistake for each closing brace
without a partner, in order, and if opening ones have none, one mistake from the
first of these to the end.

A hole that is malformed is reported as a whole, so its braces should not come
up again, and they do not: the ends of an occurrence are partners.  Then nothing
is missing for a template to be valid but that every occurrence is a placeholder
and every brace has its partner (`read_reportsUnpaired`).
-/
import QueryStencil.Proofs.Engine.Delimiters
import QueryStencil.Proofs.Template.Pairing

namespace QueryStencil

open Template

namespace Template

/-- The mistake is about opening braces that wait: it starts at the first of them, and it goes
on to the end of the text. -/
structure Mistake.OpensAtFirst (m : Mistake) (template : String) (waiting : List Nat) : Prop where
  fault_eq : m.fault = .strayOpener
  start_mem : m.start ∈ waiting
  start_le : ∀ i ∈ waiting, m.start ≤ i
  stop_eq : m.stop = template.length
  source_eq : m.source.toList = template.toList.drop m.start

/-- The mistakes are about the braces of a template that have no partner: one for each closing
brace, in order, one for all opening braces together, and none for an end of an occurrence. -/
structure ReportsUnpaired (template : String) (p : Pairing) (ms : List Mistake) : Prop where
  matching : Matching template.toList template.toList.length p
  ascending : p.alone.Pairwise (· < ·)
  mistakes_eq : ∃ opening : Option Mistake,
    ms = p.alone.map (fun i => ⟨.strayCloser, i, i + 1, "\x7d"⟩) ++ opening.toList
      ∧ (opening.isSome = true ↔ p.waiting ≠ [])
      ∧ ∀ m ∈ opening, m.OpensAtFirst template p.waiting
  not_delimiter : ∀ m ∈ ms, ∀ a b, Occurrence template.toList a b →
    m.start ≠ a ∧ m.start ≠ b - 1

/-- The opening brace at the bottom of the stack is the first of those that wait. -/
theorem opensAtFirst_of_getLast? {template : String} {waiting : List Nat} {i : Nat}
    (hdescend : waiting.Pairwise (· > ·)) (hi : waiting.getLast? = some i) :
    (Stray.mistake template (.opener i)).OpensAtFirst template waiting where
  fault_eq := rfl
  start_mem := List.mem_of_getLast? hi
  start_le := by
    obtain ⟨above, rfl⟩ := List.getLast?_eq_some_iff.mp hi
    intro j hj
    rcases List.mem_append.mp hj with hj | hj
    · exact Nat.le_of_lt ((List.pairwise_append.mp hdescend).2.2 j hj i List.mem_cons_self)
    · exact Nat.le_of_eq (List.mem_singleton.mp hj).symm
  stop_eq := rfl
  source_eq := String.toList_ofList

theorem Stray.start_mistake (template : String) (s : Stray) :
    (s.mistake template).start = s.offset := by
  cases s <;> rfl

/-- The stray braces report what the pairing of all braces leaves over. -/
theorem reportsUnpaired_strays (template : String) :
    ReportsUnpaired template (pairing template.toList)
      ((strays template).map (Stray.mistake template)) := by
  have h := matching_pairing template.toList
  rw [strays_eq]
  generalize pairing template.toList = p at h ⊢
  refine ⟨h, h.alone_ascend, ?_, ?_⟩
  · refine ⟨p.waiting.getLast?.map fun i => Stray.mistake template (.opener i), ?_, ?_, ?_⟩
    · rw [Pairing.strays, List.map_append, List.map_map]
      cases p.waiting.getLast? <;> rfl
    · rw [Option.isSome_map, List.getLast?_isSome]
    · intro m hm
      obtain ⟨i, hi, rfl⟩ := Option.map_eq_some_iff.mp hm
      exact opensAtFirst_of_getLast? h.waiting_descend hi
  · intro m hm a b hocc
    obtain ⟨s, hs, rfl⟩ := List.mem_map.mp hm
    have hlast : b - 1 < template.toList.length := (List.getElem?_eq_some_iff.mp hocc.closer.1).1
    rw [s.start_mistake]
    exact Pairing.offset_ne_of_mem_strays h hocc (by omega) hs

end Template

namespace Engine

variable {e : Engine} {template : String}

/-- A template is valid if every occurrence is a placeholder and no brace is stray. -/
theorem isValid_iff_placeholders :
    (e.read template).IsValid
      ↔ (∀ a b, Occurrence template.toList a b →
          ∃ q ∈ (e.read template).placeholders, q.start = a ∧ q.stop = b)
        ∧ strays template = [] := by
  constructor
  · intro h
    exact ⟨fun _ _ => (occurrence_iff_of_isValid h).mp, strays_of_isValid h⟩
  · rintro ⟨hall, hstrays⟩
    have hunbalanced : (e.read template).unbalanced = [] := by
      rw [unbalanced_read, hstrays]
      rfl
    have hmalformed : (e.read template).malformed = [] := by
      apply List.eq_nil_iff_forall_not_mem.mpr
      intro m hm
      have hspan : m.span ∈ (e.read template).spans :=
        List.mem_append_right _ (List.mem_map_of_mem hm)
      obtain ⟨q, hq, hstart, hstop⟩ := hall _ _ ((e.mem_spans_iff template _ _).mp hspan)
      -- the span would be reported twice, for a placeholder and for a mistake
      have hdistinct := (List.pairwise_append.mp (e.spans_pairwise template)).2.2
        q.span (List.mem_map_of_mem hq) m.span (List.mem_map_of_mem hm)
      exact hdistinct.1 (Prod.ext hstart hstop)
    rw [Reading.IsValid, mistakes_read, hmalformed, hunbalanced]
    rfl

/-- The mistakes of single braces in a reading are the braces without a partner, and a template is
valid exactly if there are none and every occurrence is a well-formed placeholder. -/
theorem read_reportsUnpaired (e : Engine) (template : String) :
    let p := pairing template.toList
    let r := e.read template
    ReportsUnpaired template p ((strays template).map (Stray.mistake template))
      ∧ r.unbalanced = (strays template).map (Stray.mistake template)
      ∧ (r.IsValid ↔ (∀ a b, Occurrence template.toList a b →
            ∃ q ∈ r.placeholders, q.start = a ∧ q.stop = b)
          ∧ p.waiting = [] ∧ p.alone = []) := by
  refine ⟨reportsUnpaired_strays template, e.unbalanced_read template, ?_⟩
  rw [isValid_iff_placeholders, strays_eq, Pairing.strays_eq_nil_iff]

end Engine

end QueryStencil
