import Intake.Answers.Basic
import Intake.Proofs.Json.RoundTrip

set_option autoImplicit false

/-!
# Storing answers and reading them back

Answers whose numbers are integers that may be written have a text to store, and reading it gives
their tree again, so that two such answers have one text exactly if they have one tree.
-/

namespace Intake.Answers

theorem persisted_of_integral {d : Answers} (h : d.tree.Integral) : d.persisted = .ok d.text :=
  if_pos (Json.isWritable_of_integral h)

/-- A text of an object is accepted, and the answers that it makes are unlocked and in no locale. -/
theorem ofText_of_read {s : Text} {ms : Members} (h : Json.read s = .ok (.object ms)) :
    ∃ e, ofText s = .ok e ∧ e.tree = .object ms ∧ e.locked = false ∧ e.locale = none := by
  unfold ofText
  split
  · next eq => cases eq.symm.trans h
  · next eq => cases eq.symm.trans h
  · next read eq =>
    cases eq.symm.trans h
    exact ⟨_, rfl, rfl, rfl, rfl⟩
  · next v other eq =>
    cases eq.symm.trans h
    exact absurd rfl (other ms)

theorem sameText_iff {d e : Answers} (hd : d.tree.Integral) (he : e.tree.Integral) :
    d.sameText e = true ↔ d.tree = e.tree := by
  rw [sameText, decide_eq_true_iff]
  constructor
  · intro same
    exact Json.write_injective d.wellKeyed e.wellKeyed hd he same
  · intro same
    rw [text, text, same]

/-- Answers whose numbers are integers that may be written can be stored, and the stored text makes
answers with the same tree, the order of the keys in every object included. Two such answers have
the same text exactly if they have the same tree. -/
theorem text_reads_back (d : Answers) (h : d.tree.Integral) :
    d.persisted = .ok d.text ∧
    (∃ e, create (some d.text) none = .ok e ∧ e.tree = d.tree ∧ e.text = d.text ∧
      e.locked = false ∧ e.locale = none) ∧
    ∀ e : Answers, e.tree.Integral → (d.sameText e = true ↔ d.tree = e.tree) := by
  refine ⟨persisted_of_integral h, ?_, fun e he => sameText_iff h he⟩
  obtain ⟨e, made, tree, locked, locale⟩ := ofText_of_read (Json.read_write d.wellKeyed h)
  have created : create (some d.text) none = .ok e := by
    have read : ofText d.text = .ok e := made
    simp only [create, Option.elim_some, read]
  exact ⟨e, created, tree, congrArg Json.write tree, locked, locale⟩

/-- Answers with a quote, a control character and a letter beyond ASCII in a key and in a text, and
with a negative number and empty collections. -/
def accented : Answers where
  members := [("été\"", .object [("\x01", .array [.atom (.int (-12)), .atom .null, .array []])]),
    (Profile.applicantKey, .atom (.text "Zoë\n\\"))]
  wellKeyed := by
    refine .object (by decide) (List.forall_mem_cons.2 ⟨?_, ?_⟩)
    · refine .object (by decide) (List.forall_mem_singleton.2 (.array ?_))
      simp [Json.WellKeyed.atom]
    · exact List.forall_mem_singleton.2 (.atom _)
  locked := true
  locale := none

theorem accented_reads_back : accented.tree.Integral ∧
    (∃ e, create (some accented.text) none = .ok e ∧ e.tree = accented.tree ∧ e.locked = false) ∧
      accented.sameText empty = false := by
  have integral : accented.tree.Integral := by
    refine .object (List.forall_mem_cons.2 ⟨.object ?_, List.forall_mem_singleton.2 (.atom rfl)⟩)
    refine List.forall_mem_singleton.2 (.array ?_)
    have small : (Atom.int (-12)).isIntegral = true := by decide
    simp [Json.Integral.atom small, Json.Integral.atom (rfl : Atom.null.isIntegral = true),
      Json.Integral.array]
  have none : empty.tree.Integral :=
    .object (List.forall_mem_singleton.2 (.object (List.forall_mem_nil _)))
  obtain ⟨_, ⟨e, made, tree, _, unlocked, _⟩, same⟩ := text_reads_back accented integral
  refine ⟨integral, ⟨e, made, tree, unlocked⟩, ?_⟩
  have other : accented.tree ≠ empty.tree := fun eq =>
    absurd (congrArg List.length (Json.object.inj eq)) (by decide)
  rw [← Bool.not_eq_true, same empty none]
  exact other

end Intake.Answers
