import Intake.Proofs.Answers.Indices

set_option autoImplicit false

/-!
# Deleting what is not there

Nothing is erased where nothing is stored, so that a deletion changes nothing. Clearing an array
writes first what it erases, and the write builds the way there: after the erasure there is an
object for the array to stand in, also if there was none.
-/

namespace Intake

theorem Path.exists_parent {p : Path} (inside : p.isRoot = false) :
    ∃ (parent : Path) (k : Text), p.parent = .ok parent ∧ p.withoutIndex = parent.field k := by
  obtain ⟨parent, s, rfl⟩ := exists_eq_append inside
  refine ⟨parent, s.key, ?_, withoutIndex_append parent s⟩
  simp [Path.parent, parentSegments, append, isRoot]

namespace Answers

variable {d : Answers} {p : Path}

theorem get?_of_withoutIndex (absent : d.get? p.withoutIndex = none) : d.get? p = none := by
  cases element : p.isElement with
  | false =>
    rw [Path.withoutIndex_of_not_isElement element] at absent
    exact absent
  | true =>
    obtain ⟨i, steps⟩ := Path.exists_steps_of_isElement element
    unfold get? at absent ⊢
    simp [steps, Json.get?_append, absent]

end Answers

namespace Edit

variable {d mid : Answers} {p parent : Path} {k : Text}

theorem deleteEntities_absent {indices : List Int} (unlocked : d.locked = false)
    (inside : p.isRoot = false) (absent : d.get? p.withoutIndex = none)
    (natural : ∀ i ∈ indices, 0 ≤ i) (writable : ∀ i ∈ indices, Numeral.isWritable i = true) :
    deleteEntities p indices d = .ok false d := by
  refine deleteEntities_missing unlocked inside natural writable ?_
  by_cases none : indices = []
  · exact .inl none
  · obtain ⟨i, mem⟩ := List.exists_mem_of_ne_nil _ none
    refine .inr ⟨i, mem, fun xs stored => ?_⟩
    rw [absent] at stored
    cases stored

theorem clearEntities_absent (unlocked : d.locked = false) (inside : p.isRoot = false)
    (absent : d.get? p.withoutIndex = none) : clearEntities p d = .ok true d := by
  have empty : d.hasPath (p.element 0) = false := by
    simp [Answers.hasPath, d.get?_element inside, absent, Json.itemsOf]
  rw [clearEntities_ok unlocked inside, empty, Answers.erase_of_absent absent]
  rfl

theorem clearArray_of_not_isElement (unlocked : d.locked = false) (member : p.isElement = false) :
    clearArray p d = .ok () d := by
  rw [clearArray, requireUnlocked_bind unlocked, member]
  rfl

/-- How clearing an array that is not there can leave the answers: there is an object now for the
array to stand in, and beside it only what has been built on the way. -/
structure ParentBuilt (d : Answers) (parent : Path) (new : Answers) : Prop where
  object : new.get? parent = some (.object (Json.membersOf (d.get? parent)))
  around : Json.WayBuilt parent.steps d.tree new.tree
  locked : new.locked = d.locked
  locale : new.locale = d.locale

theorem membersOf_absent (absent : d.get? (parent.field k) = none) :
    Members.erase k (Json.membersOf (d.get? parent)) = Json.membersOf (d.get? parent) := by
  apply Members.erase_of_new
  intro mem
  cases stored : d.get? parent with
  | none => simp [stored, Json.membersOf, Members.keys] at mem
  | some w =>
    cases w with
    | object ms =>
      rw [Answers.get?_field stored] at absent
      rw [stored] at mem
      exact Members.get?_eq_none_iff.1 absent mem
    | _ => simp [stored, Json.membersOf, Members.keys] at mem

theorem parentBuilt_of_written (absent : d.get? (parent.field k) = none)
    (written : d.Written (parent.field k) .null mid) :
    ParentBuilt d parent (mid.erase (parent.field k)) := by
  have cleared := cleared_of_written written
  have tree := written.tree
  rw [Path.steps_field] at tree
  constructor
  · rw [cleared.object, membersOf_absent absent]
  · rw [Answers.tree_erase, Path.steps_field]
    exact Json.wayBuilt_above tree (Json.put_erased mid.wellKeyed tree)
  · exact cleared.locked
  · exact cleared.locale

end Edit

open Edit

/-- Deleting what is not there. Three of the four deletions change nothing, and neither does
clearing a whole array by a path that points to no element. By a path to an element it fails, with
nothing changed, if something is in the way of the array, and otherwise it leaves the object that
the array would stand in. So nothing has changed exactly if there was one. -/
theorem absent_deleted (d : Answers) (p : Path) (unlocked : d.locked = false)
    (inside : p.isRoot = false) (absent : d.get? p.withoutIndex = none) :
    (delete p).run d = .ok () d ∧
    (∀ indices : List Int, (∀ i ∈ indices, 0 ≤ i) →
      ((∀ i ∈ indices, Numeral.isWritable i = true) →
        (deleteEntities p indices).run d = .ok false d) ∧
      ((∃ i ∈ indices, Numeral.isWritable i = false) →
        (deleteEntities p indices).run d = .error .numeralTooLong d)) ∧
    (clearEntities p).run d = .ok true d ∧
    (p.isElement = false → (clearArray p).run d = .ok () d) ∧
    (p.isElement = true → ∃ parent, p.parent = .ok parent ∧
      (d.Obstructed p.withoutIndex →
        ∃ e, (clearArray p).run d = .error e d ∧ e.category = .placement) ∧
      (¬ d.Obstructed p.withoutIndex → ∃ new, (clearArray p).run d = .ok () new ∧
        ParentBuilt d parent new ∧ (new = d ↔ ∃ ms, d.get? parent = some (.object ms)))) := by
  refine ⟨?_, ?_, ?_, ?_, ?_⟩
  · exact delete_absent unlocked inside (Answers.get?_of_withoutIndex absent)
  · intro indices natural
    refine ⟨deleteEntities_absent unlocked inside absent natural, ?_⟩
    rintro ⟨i, mem, long⟩
    exact deleteEntities_long unlocked inside natural mem long
  · exact clearEntities_absent unlocked inside absent
  · intro member
    exact clearArray_of_not_isElement unlocked member
  · intro element
    obtain ⟨parent, k, above, field⟩ := Path.exists_parent inside
    rw [field] at absent ⊢
    refine ⟨parent, above, ?_⟩
    rcases clearArray_run unlocked element field with
      ⟨blocked, refused⟩ | ⟨free, mid, written, run⟩
    · exact ⟨fun _ => refused, fun free => absurd blocked free⟩
    · refine ⟨fun blocked => absurd blocked free, fun _ => ⟨_, run, ?_, ?_⟩⟩
      · exact parentBuilt_of_written absent written
      · exact erase_eq_self_iff absent written

/-- The first of the jobs of a third child. -/
def thirdChildJob : Path := ((children.element 2).field "jobs").element 0

theorem absent_jobs_deleted : Answers.empty.locked = false ∧ thirdChildJob.isRoot = false ∧
    Answers.empty.get? thirdChildJob.withoutIndex = none ∧
    (delete thirdChildJob).run Answers.empty = .ok () Answers.empty ∧
    ∃ new, (clearArray thirdChildJob).run Answers.empty = .ok () new ∧
      new.get? (children.element 2) = some (.object []) := by
  obtain ⟨deleted, _, _, _, cleared⟩ := absent_deleted Answers.empty thirdChildJob rfl rfl rfl
  refine ⟨rfl, rfl, rfl, deleted, ?_⟩
  obtain ⟨parent, above, stops, built⟩ := cleared rfl
  cases above
  have free : ¬ Answers.empty.Obstructed thirdChildJob.withoutIndex := by
    intro blocked
    obtain ⟨e, refused, _⟩ := stops blocked
    cases refused
  obtain ⟨new, run, left, _⟩ := built free
  exact ⟨new, run, left.object⟩

/-- Three children appear where jobs that are not there are cleared away. -/
theorem children_appear : ¬ ∀ new, Answers.empty.get? thirdChildJob.withoutIndex = none →
    (clearArray thirdChildJob).run Answers.empty = .ok () new → new = Answers.empty := by
  intro unchanged
  have same := unchanged _ rfl rfl
  have present := congrArg (fun d : Answers => d.hasPath children) same
  cases present

end Intake
