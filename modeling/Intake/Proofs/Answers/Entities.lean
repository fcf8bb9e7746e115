import Intake.Proofs.Answers.Erasing

set_option autoImplicit false

/-!
# Repeated entities and their array

The names that are read are those of the elements 0, 1, 2 and so on up to the first that is not
there (`entityNames_ok`). So there are no names also where something else than an array stands, and
it is cleared away as if it were an array without elements. All operations on an array ask for its
elements by index, and in place of an index on the path: what they do does not depend on that index,
except where no names are written.
-/

namespace Intake

namespace Path

theorem withoutIndex_of_isRoot {p : Path} (root : p.isRoot = true) : p.withoutIndex = p := by
  simp [withoutIndex, lastSegment?, segments_eq_nil root]

@[simp] theorem isElement_withoutIndex (p : Path) : p.withoutIndex.isElement = false := by
  cases inside : p.isRoot with
  | true => rw [withoutIndex_of_isRoot inside, isElement_of_isRoot inside]
  | false =>
    obtain ⟨parent, s, rfl⟩ := exists_eq_append inside
    simp [field]

@[simp] theorem isRoot_withoutIndex (p : Path) : p.withoutIndex.isRoot = p.isRoot := by
  cases inside : p.isRoot with
  | true => rw [withoutIndex_of_isRoot inside, inside]
  | false =>
    obtain ⟨parent, s, rfl⟩ := exists_eq_append inside
    simp [field]

theorem withoutIndex_of_not_isElement {p : Path} (member : p.isElement = false) :
    p.withoutIndex = p := by
  cases inside : p.isRoot with
  | true => exact withoutIndex_of_isRoot inside
  | false =>
    obtain ⟨parent, k, rfl⟩ := exists_eq_field inside member
    simp [field]

@[simp] theorem withoutIndex_withoutIndex (p : Path) :
    p.withoutIndex.withoutIndex = p.withoutIndex :=
  withoutIndex_of_not_isElement p.isElement_withoutIndex

theorem exists_withoutIndex_eq_field {p : Path} (inside : p.isRoot = false) :
    ∃ (parent : Path) (k : Text), p.withoutIndex = parent.field k := by
  obtain ⟨parent, s, rfl⟩ := exists_eq_append inside
  exact ⟨parent, s.key, withoutIndex_append parent s⟩

/-- An index on a path is replaced when an element is asked for. -/
@[simp] theorem atIndex_withoutIndex (p : Path) : p.withoutIndex.atIndex = p.atIndex := by
  funext i
  cases inside : p.isRoot with
  | true => rw [withoutIndex_of_isRoot inside]
  | false =>
    obtain ⟨parent, s, rfl⟩ := exists_eq_append inside
    simp [atIndex, field]

@[simp] theorem atPosition_withoutIndex (p : Path) (i : Nat) :
    p.withoutIndex.atPosition i = p.atPosition i := by
  cases inside : p.isRoot with
  | true => rw [withoutIndex_of_isRoot inside]
  | false =>
    obtain ⟨parent, s, rfl⟩ := exists_eq_append inside
    simp [atPosition, field]

end Path

theorem Json.bind_child?_index_eq (old : Option Json) (i : Nat) :
    old.bind (child? (.index i)) = (itemsOf old)[i]? := by
  rcases old with _ | (a | xs | ms) <;> simp [itemsOf, child?]

namespace Answers

variable {p : Path}

theorem get?_element (d : Answers) (inside : p.isRoot = false) (i : Nat) :
    d.get? (p.element i) = (Json.itemsOf (d.get? p.withoutIndex))[i]? := by
  rw [← Json.bind_child?_index_eq, get?, get?, Edit.steps_element inside i,
    Json.get?_append]
  congr
  funext v
  simp [Json.get?]

theorem entityNames_eq (d : Answers) (inside : p.isRoot = false) :
    d.entityNames p = .ok ((Json.itemsOf (d.get? p.withoutIndex)).map Json.entityName) := by
  unfold entityNames
  simp only [inside, Bool.false_eq_true, if_false]
  split
  · next xs stored => simp [stored, Json.itemsOf]
  · next other =>
    unfold Json.itemsOf
    split
    · next xs stored => exact absurd stored (other xs)
    · rfl

/-- What is read are the names of the elements that are there. One without a name has an empty
one. -/
theorem entityNames_ok (d : Answers) (inside : p.isRoot = false) :
    ∃ names, d.entityNames p = .ok names ∧
      ∀ i : Nat, names[i]? =
        if d.hasPath (p.element i) then some ((d.readText (p.entity i)).getD "") else none := by
  refine ⟨_, d.entityNames_eq inside, fun i => ?_⟩
  rw [List.getElem?_map, ← d.get?_element inside, readText, hasPath, Path.entity, get?, get?,
    Path.steps_field, Json.get?_append]
  cases d.tree.get? (p.element i).steps <;> rfl

end Answers

namespace Edit

variable {d : Answers} {p : Path}

/-! ## Clearing -/

/-- The array is kept as long as it has a first element. -/
theorem clearEntities_ok (unlocked : d.locked = false) (inside : p.isRoot = false) :
    clearEntities p d =
      if d.hasPath (p.element 0) then .ok false d else .ok true (d.erase p.withoutIndex) := by
  obtain ⟨names, read, each⟩ := d.entityNames_ok inside
  have run : clearEntities p d =
      (if names.isEmpty then delete p.withoutIndex >>= fun _ => pure true else pure false :
        Edit Bool) d := by
    rw [clearEntities, requireUnlocked_bind unlocked]
    change (ofExcept (d.entityNames p) >>= fun names => _ : Edit Bool) d = _
    rw [read]
    rfl
  have first := each 0
  have field : p.withoutIndex.isRoot = false := by rw [p.isRoot_withoutIndex, inside]
  rw [run]
  cases names with
  | nil =>
    have absent : d.hasPath (p.element 0) = false := by simpa using first
    rw [absent]
    exact bind_of_ok (delete_ok unlocked field) _
  | cons name names =>
    have present : d.hasPath (p.element 0) = true := by
      by_contra absent
      simp [absent] at first
    rw [present]
    rfl

/-- All is as it was, or all but an array without elements that stood at a path. -/
def LosesNothing (d : Answers) (p : Path) (new : Answers) : Prop :=
  new = d ∨ d.get? p = some (.array []) ∧ ∃ (parent : Path) (k : Text), p = parent.field k ∧
    Json.MemberErased parent.steps k d.tree new.tree ∧
    new.locked = d.locked ∧ new.locale = d.locale

theorem losesNothing_erase_iff (inside : p.isRoot = false) (member : p.isElement = false) :
    LosesNothing d p (d.erase p) ↔ ∀ w, d.get? p = some w → w = .array [] := by
  obtain ⟨parent, k, rfl⟩ := Path.exists_eq_field inside member
  constructor
  · rintro (same | ⟨stored, _⟩) w here
    · have gone := (Answers.memberErased_erase here).gone []
      rw [same, ← Path.steps_field] at gone
      rw [Answers.get?, gone] at here
      cases here
    · rw [stored] at here
      exact (Option.some.inj here).symm
  · intro empty
    cases stored : d.get? (parent.field k) with
    | none => exact .inl (Answers.erase_of_absent stored)
    | some w =>
      obtain rfl := empty w stored
      exact .inr ⟨stored, parent, k, rfl, Answers.memberErased_erase stored, d.state_erase _⟩

end Edit

open Edit

/-- Clearing takes nothing away from an array with elements, and says that there are no entities
exactly if there is no first element. But then it takes away whatever stands there, so that nothing
is lost exactly if that is an array or nothing. -/
theorem clearing_loses_nothing_iff (d : Answers) (p : Path) (unlocked : d.locked = false)
    (inside : p.isRoot = false) :
    ∃ cleared new, (clearEntities p).run d = .ok cleared new ∧
      (cleared = true ↔ d.hasPath (p.element 0) = false) ∧ (cleared = false → new = d) ∧
      (d.get? p.withoutIndex = none → new = d) ∧
      (∀ w, cleared = true → d.get? p.withoutIndex = some w →
        ∃ (parent : Path) (k : Text), p.withoutIndex = parent.field k ∧
          Json.MemberErased parent.steps k d.tree new.tree) ∧
      (LosesNothing d p.withoutIndex new ↔
        ∀ w, d.get? p.withoutIndex = some w → ∃ xs, w = .array xs) ∧
      new.locked = d.locked ∧ new.locale = d.locale := by
  have run := clearEntities_ok unlocked inside
  have field : p.withoutIndex.isRoot = false := by rw [p.isRoot_withoutIndex, inside]
  have elements : d.hasPath (p.element 0) = true ↔
      ∃ xs, d.get? p.withoutIndex = some (.array xs) ∧ 0 < xs.length := hasPath_element_iff inside
  cases first : d.hasPath (p.element 0) with
  | true =>
    rw [first] at run
    obtain ⟨xs, stored, _⟩ := elements.1 first
    refine ⟨false, d, run, by simp, fun _ => rfl, fun _ => rfl, nofun, ?_, rfl, rfl⟩
    refine iff_of_true (.inl rfl) fun w here => ?_
    rw [stored] at here
    cases here
    exact ⟨xs, rfl⟩
  | false =>
    rw [first] at run
    obtain ⟨locked, locale⟩ := d.state_erase p.withoutIndex
    refine ⟨true, d.erase p.withoutIndex, run, by simp, nofun, Answers.erase_of_absent, ?_, ?_,
      locked, locale⟩
    · intro w _ stored
      obtain ⟨parent, k, same⟩ := Path.exists_withoutIndex_eq_field inside
      rw [same] at stored
      exact ⟨parent, k, same, same ▸ Answers.memberErased_erase stored⟩
    · rw [losesNothing_erase_iff field p.isElement_withoutIndex]
      refine forall_congr' fun w => forall_congr' fun stored => ?_
      constructor
      · rintro rfl
        exact ⟨[], rfl⟩
      · rintro ⟨xs, rfl⟩
        cases xs with
        | nil => rfl
        | cons x xs =>
          rw [elements.2 ⟨x :: xs, stored, by simp⟩] at first
          cases first

/-- A field beside the children. -/
def note : Path := Profile.applicant.field "note"

theorem note_cleared_as_entities : threeChildren.locked = false ∧ note.isRoot = false ∧ ∃ new,
    (clearEntities note).run threeChildren = .ok true new ∧ new.get? note = none ∧
      new.get? children = threeChildren.get? children := by
  refine ⟨rfl, rfl, ?_⟩
  obtain ⟨cleared, new, run, none, _, _, removed, _⟩ :=
    clearing_loses_nothing_iff threeChildren note rfl rfl
  obtain rfl := none.2 rfl
  obtain ⟨parent, k, same, erased⟩ := removed (.atom (.text "x")) rfl rfl
  have steps : parent.steps ++ [.key k] = note.steps := by
    rw [← Path.steps_field, ← same]
    rfl
  refine ⟨new, run, ?_, erased.beside _ ?_⟩
  · rw [Answers.get?, ← steps]
    exact erased.gone []
  · rw [steps]
    exact ⟨by decide, by decide⟩

/-- The text of a note is gone, although it was no array. -/
theorem note_is_lost : ∃ new, (clearEntities note).run threeChildren = .ok true new ∧
    ¬ LosesNothing threeChildren note.withoutIndex new := by
  refine ⟨_, rfl, ?_⟩
  rintro (same | ⟨stored, _⟩)
  · have kept := congrArg (Answers.get? · note) same
    cases kept
  · cases stored

end Intake
