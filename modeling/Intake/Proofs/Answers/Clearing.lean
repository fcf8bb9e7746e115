import Intake.Proofs.Answers.Merging
import Intake.Proofs.Json.Erase
import Intake.Proofs.Sequence

set_option autoImplicit false

/-!
# Clearing answers

A path that points to no element ends in a key, so what is erased there is a member of an object.
Unlocked answers are cleared at any path but the root.
-/

namespace Intake

namespace Path

/-- A path but the root that points to no element is a field of its parent. -/
theorem exists_eq_field {p : Path} (inside : p.isRoot = false) (member : p.isElement = false) :
    ∃ (parent : Path) (k : Text), p = parent.field k := by
  obtain ⟨segments⟩ := p
  rcases List.eq_nil_or_concat segments with rfl | ⟨init, ⟨k, index⟩, rfl⟩
  · cases inside
  · cases index with
    | none => exact ⟨⟨init⟩, k, by rw [List.concat_eq_append]; rfl⟩
    | some i => simp [isElement, index?, lastSegment?] at member

/-- A path but the root is a segment behind its parent. -/
theorem exists_eq_append {p : Path} (inside : p.isRoot = false) :
    ∃ (parent : Path) (s : Segment), p = parent.append s := by
  obtain ⟨segments⟩ := p
  rcases List.eq_nil_or_concat segments with rfl | ⟨init, s, rfl⟩
  · cases inside
  · exact ⟨⟨init⟩, s, by simp [append]⟩

section Segments

variable (parent : Path) (s : Segment)

@[simp] theorem isRoot_append : (parent.append s).isRoot = false := by
  simp [append, isRoot]

@[simp] theorem isElement_append : (parent.append s).isElement = s.index.isSome := by
  simp [append, isElement, index?, lastSegment?]

@[simp] theorem withoutIndex_append : (parent.append s).withoutIndex = parent.field s.key := by
  simp [append, field, withoutIndex, lastSegment?, parentSegments]

@[simp] theorem element_append (i : Nat) :
    (parent.append s).element i = parent.append ⟨s.key, some i⟩ := by
  simp [append, element, lastSegment?, parentSegments]

@[simp] theorem steps_append : (parent.append s).steps = parent.steps ++ s.steps := by
  simp [append, steps]

end Segments

section Elements

variable (parent : Path) (k : Text) (i : Nat)

theorem atPosition_field : (parent.field k).atPosition i = .ok ((parent.field k).element i) := by
  simp [atPosition, isRoot, field, append]

theorem element_field : (parent.field k).element i = parent.append ⟨k, some i⟩ := by
  simp [element, lastSegment?, parentSegments, field, append]

theorem isRoot_element_field : ((parent.field k).element i).isRoot = false := by
  simp [element_field, isRoot, append]

theorem isElement_element_field : ((parent.field k).element i).isElement = true := by
  simp [element_field, isElement, index?, lastSegment?, append]

theorem withoutIndex_element_field :
    ((parent.field k).element i).withoutIndex = parent.field k := by
  rw [element_field]
  simp [withoutIndex, lastSegment?, parentSegments, field, append]

theorem steps_element_field :
    ((parent.field k).element i).steps = (parent.field k).steps ++ [.index i] := by
  rw [element_field]
  simp [steps, append, field, Segment.steps, Segment.indexSteps]

end Elements

end Path

namespace Answers

theorem tree_erase (d : Answers) (p : Path) : (d.erase p).tree = Json.erase p.steps d.tree := by
  unfold erase
  split
  · next none =>
    rw [Path.steps, none]
    rfl
  · next s more eq =>
    rw [Path.steps_of_segments eq]
    rfl

theorem state_erase (d : Answers) (p : Path) :
    (d.erase p).locked = d.locked ∧ (d.erase p).locale = d.locale := by
  unfold erase
  split <;> exact ⟨rfl, rfl⟩

theorem erase_of_absent {d : Answers} {p : Path} (h : d.get? p = none) : d.erase p = d := by
  obtain ⟨locked, locale⟩ := d.state_erase p
  refine eq_of_tree ?_ locked locale
  rw [tree_erase]
  exact Json.erase_of_absent d.wellKeyed h

end Answers

/-- Something is in the way of a path: it is not null, and the next step does not fit it. -/
def Answers.Obstructed (d : Answers) (p : Path) : Prop :=
  ∃ pre s rest w, p.steps = pre ++ s :: rest ∧ d.tree.get? pre = some w ∧ Json.Obstructs s w

theorem Answers.not_obstructed_of_put {d : Answers} {p : Path} {v t : Json}
    (h : Json.put p.steps v (some d.tree) = .ok t) : ¬ d.Obstructed p := by
  rintro ⟨pre, s, rest, w, way, here, stop⟩
  have blocked : Json.put p.steps v (some d.tree) = .error ⟨pre.length, w.kind⟩ :=
    Json.put_error_iff.2 ⟨pre, s, rest, w, way, here, stop, rfl⟩
  rw [h] at blocked
  cases blocked

namespace Edit

theorem delete_ok {d : Answers} {p : Path} (unlocked : d.locked = false)
    (inside : p.isRoot = false) : delete p d = .ok () (d.erase p) := by
  rw [delete, requireUnlocked_bind unlocked]
  simp only [inside, Bool.false_eq_true, if_false]
  rfl

theorem clear_ok {d : Answers} {p : Path} (unlocked : d.locked = false)
    (inside : p.isRoot = false) :
    clear p d = .ok () (if p.isElement then d else d.erase p) := by
  rw [clear, requireUnlocked_bind unlocked]
  split
  · rfl
  · exact delete_ok unlocked inside

/-! ## Whole arrays -/

section Arrays

variable {d mid : Answers} {p parent : Path} {k : Text} {v : Json} {hv : v.WellKeyed}

/-- A write in unlocked answers fails if something is in its way, and otherwise succeeds. -/
theorem put_run (unlocked : d.locked = false) (inside : p.isRoot = false) :
    (d.Obstructed p ∧ ∃ e, put p v hv d = .error e d ∧ e.category = .placement) ∨
      (¬ d.Obstructed p ∧ ∃ new, put p v hv d = .ok () new ∧ d.Written p v new) := by
  rcases put_cases p v hv d with
    ⟨locked, _⟩ | ⟨_, ⟨root, _⟩ | ⟨_, new, run, written⟩ | ⟨_, b, run, blocked⟩⟩
  · rw [unlocked] at locked
    cases locked
  · exact absurd root (Path.segments_ne_nil inside)
  · exact .inr ⟨Answers.not_obstructed_of_put written.tree, new, run, written⟩
  · obtain ⟨pre, s, rest, w, way, here, stop, _⟩ := Json.put_error_iff.1 blocked
    exact .inl ⟨⟨pre, s, rest, w, way, here, stop⟩, _, run, p.category_blocked b⟩

theorem clearArray_run (unlocked : d.locked = false) (element : p.isElement = true)
    (field : p.withoutIndex = parent.field k) :
    (d.Obstructed (parent.field k) ∧ ∃ e, clearArray p d = .error e d ∧ e.category = .placement) ∨
      (¬ d.Obstructed (parent.field k) ∧ ∃ mid, d.Written (parent.field k) .null mid ∧
        clearArray p d = .ok () (mid.erase (parent.field k))) := by
  have run : clearArray p d =
      (putAtom (parent.field k) .null >>= fun _ => delete (parent.field k)) d := by
    rw [clearArray, requireUnlocked_bind unlocked, if_pos element, field]
  have inside := parent.isRoot_append ⟨k, none⟩
  rw [run]
  rcases put_run unlocked inside with ⟨blocked, e, refused, category⟩ | ⟨free, mid, put, written⟩
  · exact .inl ⟨blocked, e, bind_of_error refused _, category⟩
  · have still : mid.locked = false := written.locked.trans unlocked
    exact .inr ⟨free, mid, written, (bind_of_ok put _).trans (delete_ok still inside)⟩

/-- What clearing an array leaves: the object that it stood in, or a new one, does not have it any
more, and what stood beside it is there. -/
structure Cleared (d : Answers) (parent : Path) (k : Text) (new : Answers) : Prop where
  object : new.get? parent =
    some (.object (Members.erase k (Json.membersOf (d.get? parent))))
  kept : ∀ q w, Json.Independent (parent.field k).steps q → d.tree.get? q = some w →
    new.tree.get? q = some w
  locked : new.locked = d.locked
  locale : new.locale = d.locale

theorem Cleared.absent {new : Answers} (h : Cleared d parent k new) :
    new.get? (parent.field k) = none := by
  rw [Answers.get?_field h.object, Members.get?_erase_self]

theorem cleared_of_written (written : d.Written (parent.field k) v mid) :
    Cleared d parent k (mid.erase (parent.field k)) := by
  obtain ⟨locked, locale⟩ := mid.state_erase (parent.field k)
  have tree := written.tree
  rw [Path.steps_field] at tree
  constructor
  · rw [Answers.get?, Answers.tree_erase, Path.steps_field]
    exact Json.get?_put_self (Json.put_erased mid.wellKeyed tree)
  · intro q w free stored
    rw [Path.steps_field] at free
    rw [Answers.tree_erase, Path.steps_field, Json.get?_erase_of_independent free]
    exact Json.get?_put_of_independent tree free stored
  · exact locked.trans written.locked
  · exact locale.trans written.locale

/-- Nothing is in the way of a member of an object. -/
theorem not_obstructed_of_object {ms : Members} (here : d.get? parent = some (.object ms)) :
    ¬ d.Obstructed (parent.field k) := by
  obtain ⟨t, written⟩ := Answers.exists_put_field here k .null
  exact Answers.not_obstructed_of_put written

/-- Nothing is left of a member that was not there before, if there was an object for it. -/
theorem erase_eq_self_iff (absent : d.get? (parent.field k) = none)
    (written : d.Written (parent.field k) v mid) :
    mid.erase (parent.field k) = d ↔ ∃ ms, d.get? parent = some (.object ms) := by
  have cleared := cleared_of_written written
  constructor
  · intro same
    rw [same] at cleared
    exact ⟨_, cleared.object⟩
  · rintro ⟨ms, here⟩
    have tree := written.tree
    rw [Path.steps_field] at tree
    have same : (mid.erase (parent.field k)).tree = (d.erase (parent.field k)).tree := by
      rw [Answers.tree_erase, Answers.tree_erase, Path.steps_field]
      exact Json.erase_put d.wellKeyed mid.wellKeyed here tree
    rw [Answers.erase_of_absent absent] at same
    exact Answers.eq_of_tree same cleared.locked cleared.locale

end Arrays

end Edit
end Intake
