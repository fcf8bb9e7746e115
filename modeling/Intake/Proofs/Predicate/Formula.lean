import Mathlib.Data.List.Perm.Basic
import Intake.Predicate

set_option autoImplicit false

/-!
# Trees of queries as formulas

"All" and "any" differ only in the truth value of a child that decides the node (`decisive`), so
that both are one kind of node (`Connective.node`). Where every query of a tree has a truth value,
the tree has the value of its formula (`holds_eq_value`), and neither the order of the children nor
a node right below a node of its own kind matters (`Rearranged.value_eq`).
-/

namespace Intake.Predicate

inductive Connective where
  | all
  | any
  deriving DecidableEq

namespace Connective

def node : Connective → Predicate → List Predicate → Predicate
  | all => .all
  | any => .any

/-- The truth value with which a child decides the node. -/
def decisive : Connective → Bool
  | all => false
  | any => true

/-- Evaluation goes on behind a child that does not decide. -/
def next (k : Connective) (first rest : Except Fault Bool) : Except Fault Bool := do
  if (← first) = k.decisive then return k.decisive else rest

def holdsEach (k : Connective) (d : Answers) : List Predicate → Except Fault Bool :=
  match k with
  | all => holdsAll d
  | any => holdsAny d

/-- The truth value of a node whose children have some truth values. -/
def join : Connective → List Bool → Bool
  | all, bs => bs.all id
  | any, bs => bs.any id

@[simp] theorem next_error (k : Connective) (e : Fault) (rest : Except Fault Bool) :
    k.next (.error e) rest = .error e := rfl

@[simp] theorem next_decisive (k : Connective) (rest : Except Fault Bool) :
    k.next (.ok k.decisive) rest = .ok k.decisive := by
  simp [next, bind, Except.bind, pure, Except.pure]

theorem next_of_ne {k : Connective} {b : Bool} (h : b ≠ k.decisive) (rest : Except Fault Bool) :
    k.next (.ok b) rest = rest := by
  simp [next, bind, Except.bind, h]

theorem next_ok (k : Connective) (b : Bool) (bs : List Bool) :
    k.next (.ok b) (.ok (k.join bs)) = .ok (k.join (b :: bs)) := by
  cases k <;> cases b <;> rfl

theorem node_inj {k k' : Connective} {c c' : Predicate} {cs cs' : List Predicate} :
    k.node c cs = k'.node c' cs' ↔ k = k' ∧ c = c' ∧ cs = cs' := by
  cases k <;> cases k' <;> simp [node]

theorem join_perm (k : Connective) {xs ys : List Bool} (h : xs.Perm ys) :
    k.join xs = k.join ys := by
  cases k with
  | all => exact h.all_eq
  | any => exact h.any_eq

end Connective

variable {d : Answers}

@[simp] theorem holdsEach_nil (k : Connective) : k.holdsEach d [] = .ok (!k.decisive) := by
  cases k <;> rfl

theorem holdsEach_cons (k : Connective) (c : Predicate) (cs : List Predicate) :
    k.holdsEach d (c :: cs) = k.next (c.holds d) (k.holdsEach d cs) := by
  cases k with
  | all =>
    rw [Connective.holdsEach, holdsAll]
    rcases c.holds d with e | _ | _ <;> rfl
  | any =>
    rw [Connective.holdsEach, holdsAny]
    rcases c.holds d with e | _ | _ <;> rfl

theorem holds_node (k : Connective) (c : Predicate) (cs : List Predicate) :
    (k.node c cs).holds d = k.holdsEach d (c :: cs) := by
  cases k with
  | all => rw [Connective.node, holds, Connective.holdsEach, holdsAll]
  | any => rw [Connective.node, holds, Connective.holdsEach, holdsAny]

theorem leaves_node (k : Connective) (c : Predicate) (cs : List Predicate) :
    (k.node c cs).leaves = leavesOf (c :: cs) := by
  cases k with
  | all => rw [Connective.node, leaves, leavesOf]
  | any => rw [Connective.node, leaves, leavesOf]

theorem leavesOf_eq_flatMap (ps : List Predicate) : leavesOf ps = ps.flatMap leaves := by
  induction ps with
  | nil => rw [leavesOf, List.flatMap_nil]
  | cons p ps ih => rw [leavesOf, ih, List.flatMap_cons]

mutual

/-- What holds of every leaf, and of a node if it holds of its children, holds of every tree. -/
@[elab_as_elim] theorem nodeInduction {P : Predicate → Prop} (leaf : ∀ q, P (.leaf q))
    (node : ∀ (k : Connective) c cs, (∀ p ∈ c :: cs, P p) → P (k.node c cs)) :
    (p : Predicate) → P p
  | .leaf q => leaf q
  | .all c cs => node .all c cs
    (List.forall_mem_cons.2 ⟨nodeInduction leaf node c, eachInduction leaf node cs⟩)
  | .any c cs => node .any c cs
    (List.forall_mem_cons.2 ⟨nodeInduction leaf node c, eachInduction leaf node cs⟩)

theorem eachInduction {P : Predicate → Prop} (leaf : ∀ q, P (.leaf q))
    (node : ∀ (k : Connective) c cs, (∀ p ∈ c :: cs, P p) → P (k.node c cs)) :
    (ps : List Predicate) → ∀ p ∈ ps, P p
  | [] => nofun
  | p :: ps => List.forall_mem_cons.2 ⟨nodeInduction leaf node p, eachInduction leaf node ps⟩

end

theorem leaves_ne_nil (p : Predicate) : p.leaves ≠ [] := by
  induction p using nodeInduction with
  | leaf q => simp [leaves]
  | node k c cs ih =>
    rw [leaves_node, leavesOf]
    exact List.append_ne_nil_of_left_ne_nil (ih c List.mem_cons_self) _

/-! ## Truth values -/

mutual

/-- The truth value of a tree as a formula whose letters are its queries. -/
def value (v : RootedQuery → Bool) : Predicate → Bool
  | leaf q => v q
  | all first more => Connective.all.join (value v first :: valuesOf v more)
  | any first more => Connective.any.join (value v first :: valuesOf v more)

def valuesOf (v : RootedQuery → Bool) : List Predicate → List Bool
  | [] => []
  | p :: ps => value v p :: valuesOf v ps

end

variable {v : RootedQuery → Bool}

theorem valuesOf_eq_map (ps : List Predicate) : valuesOf v ps = ps.map (value v) := by
  induction ps with
  | nil => rw [valuesOf, List.map_nil]
  | cons p ps ih => rw [valuesOf, ih, List.map_cons]

theorem value_node (k : Connective) (c : Predicate) (cs : List Predicate) :
    (k.node c cs).value v = k.join ((c :: cs).map (value v)) := by
  cases k with
  | all => rw [Connective.node, value, valuesOf_eq_map, List.map_cons]
  | any => rw [Connective.node, value, valuesOf_eq_map, List.map_cons]

theorem holdsEach_eq_join (k : Connective) {ps : List Predicate}
    (h : ∀ p ∈ ps, p.holds d = .ok (p.value v)) :
    k.holdsEach d ps = .ok (k.join (ps.map (value v))) := by
  induction ps with
  | nil => cases k <;> rfl
  | cons p ps ih =>
    obtain ⟨here, later⟩ := List.forall_mem_cons.1 h
    rw [holdsEach_cons, here, ih later, Connective.next_ok, List.map_cons]

/-- A tree whose queries all have truth values has the value of its formula. -/
theorem holds_eq_value {p : Predicate} (h : ∀ q ∈ p.leaves, d.satisfies q.text = .ok (v q)) :
    p.holds d = .ok (p.value v) := by
  induction p using nodeInduction with
  | leaf q =>
    rw [holds, value]
    exact h q (by simp [leaves])
  | node k c cs ih =>
    rw [holds_node, value_node]
    apply holdsEach_eq_join
    intro p mem
    apply ih p mem
    intro q inside
    apply h q
    rw [leaves_node, leavesOf_eq_flatMap]
    exact List.mem_flatMap.2 ⟨p, mem, inside⟩

/-! ## Rearrangements -/

/-- Children of nodes are put in another order, and nodes right below a node of their own kind are
replaced by their children, or the other way around. -/
inductive Rearranged : Predicate → Predicate → Prop where
  | permuted (k : Connective) {c c' : Predicate} {cs cs' : List Predicate} :
      (c :: cs).Perm (c' :: cs') → Rearranged (k.node c cs) (k.node c' cs')
  | flattened (k : Connective) {c c' e : Predicate} {cs cs' es before after : List Predicate} :
      c :: cs = before ++ k.node e es :: after → c' :: cs' = before ++ (e :: es) ++ after →
      Rearranged (k.node c cs) (k.node c' cs')
  | within (k : Connective) {c c' p p' : Predicate} {cs cs' before after : List Predicate} :
      c :: cs = before ++ p :: after → c' :: cs' = before ++ p' :: after → Rearranged p p' →
      Rearranged (k.node c cs) (k.node c' cs')
  | refl (p : Predicate) : Rearranged p p
  | symm {p q : Predicate} : Rearranged p q → Rearranged q p
  | trans {p q r : Predicate} : Rearranged p q → Rearranged q r → Rearranged p r

namespace Rearranged

variable {p q : Predicate}

theorem value_eq (h : Rearranged p q) (v : RootedQuery → Bool) : p.value v = q.value v := by
  induction h with
  | permuted k same =>
    rw [value_node, value_node]
    exact k.join_perm (same.map _)
  | flattened k old new =>
    rw [value_node, value_node, old, new]
    cases k <;> simp [value_node, Connective.join, Bool.and_assoc, Bool.or_assoc]
  | within k old new _ ih =>
    rw [value_node, value_node, old, new]
    simp [ih]
  | refl p => rfl
  | symm _ ih => exact ih.symm
  | trans _ _ first second => exact first.trans second

/-- The same queries are asked. -/
theorem leaves_perm (h : Rearranged p q) : p.leaves.Perm q.leaves := by
  induction h with
  | permuted k same =>
    rw [leaves_node, leaves_node, leavesOf_eq_flatMap, leavesOf_eq_flatMap]
    exact same.flatMap_right _
  | flattened k old new =>
    rw [leaves_node, leaves_node, old, new]
    simp [leavesOf_eq_flatMap, leaves_node]
  | within k old new _ ih =>
    rw [leaves_node, leaves_node, old, new]
    simp only [leavesOf_eq_flatMap, List.flatMap_append, List.flatMap_cons]
    exact (ih.append_right _).append_left _
  | refl p => exact List.Perm.refl _
  | symm _ ih => exact ih.symm
  | trans _ _ first second => exact first.trans second

end Rearranged

end Intake.Predicate
