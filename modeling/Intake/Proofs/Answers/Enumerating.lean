import Intake.Proofs.Answers.Naming

set_option autoImplicit false

/-!
# What leads to a path, and the loop over entities

Something is stored at a path only if something is stored at every path that leads to it: at those
that it starts with, at the array that it points into, and at the elements before its own. So the
entities can be gathered one after the other until one is absent. The loop is `Gathers`, with the
number of its rounds; `gathers_rest` is the induction, over the elements that are still to come.
-/

namespace Intake

namespace Path

theorem steps_prefix_of_startsWith {p q : Path} (begins : p.startsWith q = true) :
    q.steps <+: p.steps := by
  obtain ⟨more, same⟩ := List.isPrefixOf_iff_prefix.1 begins
  rw [steps, steps, ← same, List.flatMap_append]
  exact List.prefix_append _ _

theorem steps_prefix_withoutIndex (p : Path) : p.withoutIndex.steps <+: p.steps := by
  cases element : p.isElement with
  | false =>
    have same := congrArg steps (withoutIndex_of_not_isElement element)
    exact ⟨[], (List.append_nil _).trans same⟩
  | true =>
    obtain ⟨i, steps⟩ := exists_steps_of_isElement element
    exact ⟨[.index i], steps.symm⟩

/-- A path with an index leads to the element with this index. -/
theorem steps_element_of_index {p : Path} {i : Nat} (index : p.index? = some i) :
    (p.element i).steps = p.steps := by
  have element : p.isElement = true := by rw [isElement, index, Option.isSome_some]
  obtain ⟨parent, s, rfl⟩ := exists_eq_append (isRoot_of_isElement element)
  have own : s.index = some i := by simpa [index?, lastSegment?, append] using index
  rw [element_append, steps_append, steps_append, Segment.steps, Segment.steps,
    Segment.indexSteps, Segment.indexSteps, own]

theorem join_entityName (q : Path) :
    q.join Scalar.entityName.name = .ok (q.field Scalar.entityName.name) := rfl

end Path

namespace Answers

variable {d : Answers} {p q : Path}

/-! ## What leads to a path -/

theorem hasPath_of_prefix (way : q.steps <+: p.steps) (stored : d.hasPath p = true) :
    d.hasPath q = true := by
  obtain ⟨rest, steps⟩ := way
  obtain ⟨w, here⟩ := Option.isSome_iff_exists.1 stored
  rw [get?, ← steps, Json.get?_append] at here
  obtain ⟨outer, found, _⟩ := Option.bind_eq_some_iff.1 here
  exact Option.isSome_iff_exists.2 ⟨outer, found⟩

theorem hasPath_element_of_le {i j : Nat} (inside : p.isRoot = false) (le : j ≤ i)
    (stored : d.hasPath (p.element i) = true) : d.hasPath (p.element j) = true := by
  rw [hasPath, d.get?_element inside, isSome_getElem?] at stored ⊢
  exact Nat.lt_of_le_of_lt le stored

theorem hasPath_atPosition_of_le {i j : Nat} (stored : d.hasPath p = true)
    (index : p.arrayIndex = .ok i) (le : j ≤ i) :
    ∃ q, p.atPosition j = .ok q ∧ d.hasPath q = true := by
  have own : p.index? = some i := by
    unfold Path.arrayIndex at index
    split at index
    · next same =>
      cases index
      exact same
    · cases index
  have inside : p.isRoot = false :=
    Path.isRoot_of_isElement (by rw [Path.isElement, own, Option.isSome_some])
  have last : d.hasPath (p.element i) = true := by
    rwa [hasPath, get?, Path.steps_element_of_index own]
  exact ⟨_, Edit.atPosition_of_inside inside j, hasPath_element_of_le inside le last⟩

/-! ## The loop -/

/-- The loop that gathers the names of entities. From an index on, and with the names that have been
gathered before, it makes so many rounds and ends with these names. -/
inductive Gathers (d : Answers) (p : Path) : Nat → List Text → Nat → List Text → Prop where
  | stop {i : Nat} {names : List Text} {q : Path} :
      p.atPosition i = .ok q → d.hasPath q = false → Gathers d p i names 0 names
  | next {i rounds : Nat} {names all : List Text} {q name : Path} :
      p.atPosition i = .ok q → d.hasPath q = true → q.join Scalar.entityName.name = .ok name →
      Gathers d p (i + 1) (names ++ [(d.readText name).getD ""]) rounds all →
      Gathers d p i names (rounds + 1) all

namespace Gathers

/-- Every round is determined by what is stored. -/
theorem unique {i m n : Nat} {before names others : List Text} (hm : Gathers d p i before m names)
    (hn : Gathers d p i before n others) : m = n ∧ names = others := by
  induction hm generalizing n with
  | stop element absent =>
    cases hn with
    | stop => exact ⟨rfl, rfl⟩
    | next element' stored =>
      cases element.symm.trans element'
      cases absent.symm.trans stored
  | next element stored joined _ ih =>
    cases hn with
    | stop element' absent =>
      cases element.symm.trans element'
      cases absent.symm.trans stored
    | next element' _ joined' later =>
      cases element.symm.trans element'
      cases joined.symm.trans joined'
      obtain ⟨rfl, rfl⟩ := ih later
      exact ⟨rfl, rfl⟩

end Gathers

theorem readText_entity {i : Nat} {x : Json} (stored : d.get? (p.element i) = some x) :
    (d.readText (p.entity i)).getD "" = x.entityName := by
  rw [readText, Path.entity, get?, Path.steps_field, Json.get?_append, ← get?, stored]
  rfl

theorem get?_element_length (inside : p.isRoot = false) {done rest : List Json}
    (items : Json.itemsOf (d.get? p.withoutIndex) = done ++ rest) :
    d.get? (p.element done.length) = rest.head? := by
  rw [d.get?_element inside, items]
  cases rest <;> simp

/-- The loop makes a round for each element that is still to come. -/
theorem gathers_rest (inside : p.isRoot = false) {done rest : List Json}
    (items : Json.itemsOf (d.get? p.withoutIndex) = done ++ rest) :
    Gathers d p done.length (done.map Json.entityName) rest.length
      ((done ++ rest).map Json.entityName) := by
  induction rest generalizing done with
  | nil =>
    have absent := get?_element_length inside items
    rw [List.append_nil]
    exact .stop (Edit.atPosition_of_inside inside _) (by rw [hasPath, absent]; rfl)
  | cons x rest ih =>
    have stored : d.get? (p.element done.length) = some x := get?_element_length inside items
    have present : d.hasPath (p.element done.length) = true := by rw [hasPath, stored]; rfl
    have later : Gathers d p (done.length + 1) (done.map Json.entityName ++ [x.entityName])
        rest.length ((done ++ x :: rest).map Json.entityName) := by
      simpa using @ih (done ++ [x]) (by simpa using items)
    rw [← readText_entity stored] at later
    exact .next (Edit.atPosition_of_inside inside _) present (Path.join_entityName _) later

end Answers

open Answers

/-- Presence is closed downwards, and what is enumerated is complete. If anything is stored at a
path, then something is stored at every path that it starts with, at its array and at every element
up to its own. The loop over the entities at a path but the root ends, and in one way only. It makes
a round for every element of the array there, and none if there is no array. Each name that it
gathers is the text at the element's name, or empty if there is none, and these names are read. -/
theorem presence_closed_enumeration_complete (d : Answers) (p : Path) :
    (d.hasPath p = true →
      (∀ q, p.startsWith q = true → d.hasPath q = true) ∧ d.hasPath p.withoutIndex = true ∧
      ∀ i, p.arrayIndex = .ok i → ∀ j ≤ i, ∃ q, p.atPosition j = .ok q ∧ d.hasPath q = true ∧
        (Numeral.isWritable j = true → p.atIndex j = .ok q)) ∧
    (p.isRoot = false → ∃ rounds names, Gathers d p 0 [] rounds names ∧
      (∀ n others, Gathers d p 0 [] n others → n = rounds ∧ others = names) ∧
      (∀ xs, d.get? p.withoutIndex = some (.array xs) → rounds = xs.length) ∧
      ((∀ xs, d.get? p.withoutIndex ≠ some (.array xs)) → rounds = 0) ∧
      names.length = rounds ∧
      (∀ i < rounds, names[i]? = some ((d.readText (p.entity i)).getD "")) ∧
      d.entityNames p = .ok names) := by
  constructor
  · intro stored
    refine ⟨fun q begins => ?_, ?_, fun i index j le => ?_⟩
    · exact hasPath_of_prefix (Path.steps_prefix_of_startsWith begins) stored
    · exact hasPath_of_prefix p.steps_prefix_withoutIndex stored
    · obtain ⟨q, made, present⟩ := hasPath_atPosition_of_le stored index le
      refine ⟨q, made, present, fun writable => ?_⟩
      rw [Path.atIndex_of_isIndex (by rwa [Path.isIndex_of_natural (Int.natCast_nonneg j)]), made]
  · intro inside
    have run : Gathers d p 0 [] (Json.itemsOf (d.get? p.withoutIndex)).length
        ((Json.itemsOf (d.get? p.withoutIndex)).map Json.entityName) :=
      @gathers_rest d p inside [] _ rfl
    refine ⟨_, _, run, fun n others other => other.unique run, ?_, ?_, by simp, ?_,
      d.entityNames_eq inside⟩
    · intro xs stored
      rw [stored, Json.itemsOf]
    · intro none
      unfold Json.itemsOf
      split
      · next xs stored => exact absurd stored (none xs)
      · rfl
    · intro i within
      have stored := d.get?_element inside i
      rw [List.getElem?_eq_getElem within] at stored
      rw [readText_entity stored, List.getElem?_map, List.getElem?_eq_getElem within]
      rfl

/-- The last of three children is there, and so are the two before it, the applicant and the array.
The loop over the children makes three rounds. -/
theorem three_children_enumerated :
    threeChildren.hasPath (children.element 2) = true ∧
    (children.element 2).startsWith Profile.applicant = true ∧
    (children.element 2).arrayIndex = .ok 2 ∧ children.isRoot = false ∧
    threeChildren.hasPath Profile.applicant = true ∧
    threeChildren.hasPath (children.element 2).withoutIndex = true ∧
    (∃ q, (children.element 2).atIndex 1 = .ok q ∧ threeChildren.hasPath q = true) ∧
    Gathers threeChildren children 0 [] 3 ["Ada", "Bob", "Cy"] := by
  obtain ⟨closed, _⟩ := presence_closed_enumeration_complete threeChildren (children.element 2)
  obtain ⟨_, enumerated⟩ := presence_closed_enumeration_complete threeChildren children
  obtain ⟨begins, array, before⟩ := closed rfl
  obtain ⟨rounds, names, run, _, each, _, _, _, read⟩ := enumerated rfl
  obtain rfl := each _ rfl
  cases read
  obtain ⟨q, _, present, index⟩ := before 2 rfl 1 (by decide)
  exact ⟨rfl, rfl, rfl, rfl, begins _ rfl, array, ⟨q, index (by decide), present⟩, run⟩

end Intake
