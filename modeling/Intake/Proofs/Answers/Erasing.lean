import Intake.Proofs.Answers.Deleting

set_option autoImplicit false

/-!
# What a deletion removes

A deletion in unlocked answers is an erasure (`delete_ok`), so that it takes away what stands at
its path and nothing else. A path ends in a key or, if it points to an element, in an index, and
what is left of the object or the array there is told apart by that.
-/

namespace Intake

namespace Path

theorem isElement_of_isRoot {p : Path} (root : p.isRoot = true) : p.isElement = false := by
  simp [isElement, index?, lastSegment?, segments_eq_nil root]

theorem isRoot_of_isElement {p : Path} (element : p.isElement = true) : p.isRoot = false := by
  cases root : p.isRoot with
  | true =>
    rw [isElement_of_isRoot root] at element
    cases element
  | false => rfl

/-- A path to an element is one step longer than the path to its array. -/
theorem exists_steps_of_isElement {p : Path} (element : p.isElement = true) :
    ∃ i, p.steps = p.withoutIndex.steps ++ [.index i] := by
  obtain ⟨parent, ⟨k, index⟩, rfl⟩ := exists_eq_append (isRoot_of_isElement element)
  cases index with
  | none => simp at element
  | some i => exact ⟨i, by simp [steps_field, Segment.steps, Segment.indexSteps]⟩

end Path

namespace Answers

theorem memberErased_erase {d : Answers} {parent : Path} {k : Text} {w : Json}
    (stored : d.get? (parent.field k) = some w) :
    Json.MemberErased parent.steps k d.tree (d.erase (parent.field k)).tree := by
  rw [get?, Path.steps_field] at stored
  rw [tree_erase, Path.steps_field]
  exact Json.memberErased_erase d.wellKeyed stored

end Answers

namespace Edit

theorem delete_root {d : Answers} {p : Path} (unlocked : d.locked = false)
    (root : p.isRoot = true) : delete p d = .error .rootErased d := by
  rw [delete, requireUnlocked_bind unlocked]
  simp only [root, if_true]
  rfl

/-- Nothing changes where nothing is stored. -/
theorem delete_absent {d : Answers} {p : Path} (unlocked : d.locked = false)
    (inside : p.isRoot = false) (absent : d.get? p = none) : delete p d = .ok () d := by
  rw [delete_ok unlocked inside, Answers.erase_of_absent absent]

end Edit

open Edit

/-- Deleting is exact. The root is refused, and nothing changes where nothing is stored. Otherwise a
path that points to no element is gone afterwards with everything below it, every place independent
of it holds what it held, the other keys of its parent keep their order, and there is nothing left
to delete. Of a path to an element, the array loses this element and those behind it move up by one,
and every place that neither leads to the array nor through it holds what it held. -/
theorem deleted_exactly (d : Answers) (p : Path) (unlocked : d.locked = false) :
    (p.isRoot = true → ∃ e, (delete p).run d = .error e d ∧ e.category = .path) ∧
    (p.isRoot = false → d.get? p = none → (delete p).run d = .ok () d) ∧
    (p.isRoot = false → d.get? p ≠ none → ∃ new, (delete p).run d = .ok () new ∧
      (p.isElement = false → (∃ (parent : Path) (k : Text), p = parent.field k ∧
        Json.MemberErased parent.steps k d.tree new.tree) ∧ (delete p).run new = .ok () new) ∧
      (p.isElement = true → ∃ i, p.steps = p.withoutIndex.steps ++ [.index i] ∧
        Json.ElementErased p.withoutIndex.steps i d.tree new.tree) ∧
      new.locked = d.locked ∧ new.locale = d.locale) := by
  refine ⟨fun root => ?_, fun inside absent => ?_, fun inside present => ?_⟩
  · exact ⟨_, delete_root unlocked root, rfl⟩
  · exact delete_absent unlocked inside absent
  · obtain ⟨w, stored⟩ := Option.ne_none_iff_exists'.1 present
    obtain ⟨locked, locale⟩ := d.state_erase p
    refine ⟨d.erase p, delete_ok unlocked inside, fun member => ?_, fun element => ?_, locked,
      locale⟩
    · obtain ⟨parent, k, rfl⟩ := Path.exists_eq_field inside member
      have erased := Answers.memberErased_erase stored
      refine ⟨⟨parent, k, rfl, erased⟩, delete_absent (locked.trans unlocked) inside ?_⟩
      rw [Answers.get?, Path.steps_field]
      exact erased.gone []
    · obtain ⟨i, steps⟩ := Path.exists_steps_of_isElement element
      rw [Answers.get?, steps] at stored
      refine ⟨i, steps, ?_⟩
      rw [Answers.tree_erase, steps]
      exact Json.elementErased_erase d.wellKeyed stored

/-- The second child is deleted, and the third takes its place. -/
theorem second_child_deleted : threeChildren.locked = false ∧ ∃ new,
    (delete (children.element 1)).run threeChildren = .ok () new ∧
      ∃ ys, new.get? children = some (.array ys) ∧ ys[0]? = some (child "Ada") ∧
        ys[1]? = some (child "Cy") := by
  have present : threeChildren.get? (children.element 1) ≠ none := nofun
  obtain ⟨_, _, deleted⟩ := deleted_exactly threeChildren (children.element 1) rfl
  obtain ⟨new, run, _, element, _⟩ := deleted rfl present
  obtain ⟨i, steps, ⟨xs, ys, stored, left, _, before, behind⟩, _⟩ := element rfl
  have last : children.steps ++ [Step.index 1] = children.steps ++ [.index i] := steps
  obtain rfl : i = 1 := by simpa using last.symm
  have all : threeChildren.tree.get? (children.element 1).withoutIndex.steps =
      some (.array [child "Ada", child "Bob", child "Cy"]) := rfl
  rw [all] at stored
  cases stored
  exact ⟨rfl, new, run, ys, left, before 0 (by decide), behind 1 (by decide)⟩

end Intake
