import Intake.Proofs.Answers.Entities

set_option autoImplicit false

/-!
# An index on the path to an array

Operations on the elements of an array take them by `Path.atIndex` or `Path.atPosition`, which put
an index in place of the one that the path has. So an index on the path makes no difference to them,
and none to the operations on the whole array that drop it. The one that keeps it is the write of an
empty array in place of no names.
-/

namespace Intake

namespace Answers

@[simp] theorem entityNames_withoutIndex (d : Answers) (p : Path) :
    d.entityNames p.withoutIndex = d.entityNames p := by
  simp [entityNames]

end Answers

namespace Edit

variable (p : Path)

/-! ## Element by element -/

@[simp] theorem putLongsFrom_withoutIndex (i : Nat) (values : List Atom) :
    putLongsFrom p.withoutIndex i values = putLongsFrom p i values := by
  induction values generalizing i with
  | nil => rfl
  | cons a values ih => simp [putLongsFrom, ih]

@[simp] theorem putEntitiesFrom_withoutIndex (i : Nat) (names : List Text) :
    putEntitiesFrom p.withoutIndex i names = putEntitiesFrom p i names := by
  induction names generalizing i with
  | nil => rfl
  | cons name names ih => simp [putEntitiesFrom, ih]

@[simp] theorem deleteEach_withoutIndex (indices : List Int) :
    deleteEach p.withoutIndex indices = deleteEach p indices := by
  induction indices with
  | nil => rfl
  | cons i indices ih => simp [deleteEach, ih]

/-! ## Whole operations -/

theorem putLongs_withoutIndex (values : List Atom) :
    putLongs p.withoutIndex values = putLongs p values := by
  simp [putLongs]

theorem putEntities_withoutIndex {names : List Text} (some : names ≠ []) :
    putEntities p.withoutIndex names = putEntities p names := by
  obtain ⟨name, names, rfl⟩ := List.exists_cons_of_ne_nil some
  simp [putEntities]

theorem deleteEntities_withoutIndex (indices : List Int) :
    deleteEntities p.withoutIndex indices = deleteEntities p indices := by
  simp [deleteEntities]

theorem clearEntities_withoutIndex : clearEntities p.withoutIndex = clearEntities p := by
  simp [clearEntities]

/-! ## No names -/

/-- Two runs end alike, with one result or with faults of one category, and leave the same. -/
inductive Alike {α : Type} :
    EStateM.Result Fault Answers α → EStateM.Result Fault Answers α → Prop where
  | ok (a : α) (new : Answers) : Alike (.ok a new) (.ok a new)
  | error {e f : Fault} (same : e.category = f.category) (new : Answers) :
      Alike (.error e new) (.error f new)

theorem Alike.refl {α : Type} (r : EStateM.Result Fault Answers α) : Alike r r := by
  cases r with
  | ok a new => exact .ok a new
  | error e new => exact .error rfl new

variable {p} {d : Answers} {v : Json} {hv : v.WellKeyed}

/-- A value on the way that a step does not fit stops the write. -/
theorem put_of_obstructed (unlocked : d.locked = false) (inside : p.isRoot = false)
    {pre rest : List Step} {s : Step} {w : Json} (way : p.steps = pre ++ s :: rest)
    (here : d.tree.get? pre = some w) (stop : Json.Obstructs s w) :
    ∃ e, put p v hv d = .error e d ∧ e.category = .placement := by
  have blocked : d.Obstructed p := ⟨pre, s, rest, w, way, here, stop⟩
  exact ((put_run unlocked inside).resolve_right fun written => written.1 blocked).2

/-- An array without elements does not hold what was written to one of its elements. -/
theorem not_alike_of_written {new : Answers} (element : p.isElement = true)
    (written : d.Written p.withoutIndex (.array []) new) :
    ¬ Alike (put p v hv d) (.ok () new) := by
  intro alike
  generalize run : put p v hv d = r at alike
  cases alike with
  | ok =>
    obtain ⟨i, steps⟩ := Path.exists_steps_of_isElement element
    have stored := (written_of_put_ok run).get?_self
    have empty := written.get?_self
    rw [Answers.get?] at stored empty
    rw [steps, Json.get?_append] at stored
    simp [empty, Json.get?, Json.child?] at stored

theorem put_withoutIndex_alike_iff :
    Alike (put p (.array []) (.array (by simp)) d)
      (put p.withoutIndex (.array []) (.array (by simp)) d) ↔
      p.isElement = false ∨ d.locked = true ∨ ∃ pre s rest w,
        p.withoutIndex.steps = pre ++ s :: rest ∧ d.tree.get? pre = some w ∧
          Json.Obstructs s w := by
  cases element : p.isElement with
  | false => simp [Path.withoutIndex_of_not_isElement element, Alike.refl]
  | true =>
    have inside := Path.isRoot_of_isElement element
    have field : p.withoutIndex.isRoot = false := by rw [p.isRoot_withoutIndex, inside]
    cases locked : d.locked with
    | true =>
      simp only [put, requireUnlocked_bind_of_locked locked, Alike.refl, true_or, or_true]
    | false =>
      simp only [Bool.true_eq_false, Bool.false_eq_true, false_or]
      constructor
      · intro alike
        cases write : Json.put p.withoutIndex.steps (.array []) (some d.tree) with
        | ok t =>
          obtain ⟨new, run, written⟩ :=
            put_ok locked (Path.segments_ne_nil field) (.array (by simp)) write
          rw [run] at alike
          exact absurd alike (not_alike_of_written element written)
        | error b =>
          obtain ⟨pre, s, rest, w, way, here, stop, _⟩ := Json.put_error_iff.1 write
          exact ⟨pre, s, rest, w, way, here, stop⟩
      · rintro ⟨pre, s, rest, w, way, here, stop⟩
        obtain ⟨i, steps⟩ := Path.exists_steps_of_isElement element
        have longer : p.steps = pre ++ s :: (rest ++ [.index i]) := by
          rw [steps, way, List.append_assoc, List.cons_append]
        obtain ⟨e, run, category⟩ := put_of_obstructed locked inside longer here stop
        obtain ⟨e', run', category'⟩ := put_of_obstructed locked field way here stop
        rw [run, run']
        exact .error (category.trans category'.symm) d

end Edit

open Edit

/-- The index on a path makes no difference to a write of numbers, to reading, deleting and clearing
entities, and to a write of names, unless there are no names. Then the empty array is written to the
element itself, and that ends as without the index only if the path has none, or if the write is
refused because the answers are locked or because something is in the way. -/
theorem index_ignored_unless_no_names (p : Path) :
    (∀ values, putLongs p values = putLongs p.withoutIndex values) ∧
    (∀ names, names ≠ [] → putEntities p names = putEntities p.withoutIndex names) ∧
    (∀ d : Answers, d.entityNames p = d.entityNames p.withoutIndex) ∧
    (∀ indices, deleteEntities p indices = deleteEntities p.withoutIndex indices) ∧
    clearEntities p = clearEntities p.withoutIndex ∧
    ∀ d : Answers, Alike ((putEntities p []).run d) ((putEntities p.withoutIndex []).run d) ↔
      p.isElement = false ∨ d.locked = true ∨ ∃ pre s rest w,
        p.withoutIndex.steps = pre ++ s :: rest ∧ d.tree.get? pre = some w ∧
          w.isNull = false ∧ s.fits w = false := by
  refine ⟨fun values => ?_, fun names some => ?_, fun d => ?_, fun indices => ?_, ?_, fun d => ?_⟩
  · rw [putLongs_withoutIndex]
  · rw [putEntities_withoutIndex p some]
  · rw [d.entityNames_withoutIndex]
  · rw [deleteEntities_withoutIndex]
  · rw [clearEntities_withoutIndex]
  · exact put_withoutIndex_alike_iff

/-- No names for the first child are written into it, and not in place of all children. -/
theorem first_child_is_emptied : ¬ Alike ((putEntities (children.element 0) []).run threeChildren)
    ((putEntities (children.element 0).withoutIndex []).run threeChildren) := by
  intro alike
  cases alike

end Intake
