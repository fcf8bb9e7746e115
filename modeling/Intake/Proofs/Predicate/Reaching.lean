import Mathlib.Data.List.Forall2
import Intake.Proofs.Predicate.Formula

set_option autoImplicit false

/-!
# Which queries of a tree are asked

A tree is evaluated on what becomes of its queries, taken from left to right (`verdict`). A query is
reached if in front of its branch no child of a node above it decides the node (`Reached`). What
becomes of the others does not matter (`verdict_eq_holds`), and evaluation fails exactly if a query
that is reached fails, with the fault of the first one (`evaluates_holds`).
-/

namespace Intake.Predicate

variable {d : Answers}

/-! ## Evaluation on outcomes -/

/-- What becomes of the queries of a tree from left to right. -/
def outcomes (d : Answers) (p : Predicate) : List (Except Fault Bool) :=
  p.leaves.map fun q => d.satisfies q.text

def outcomesOf (d : Answers) (ps : List Predicate) : List (Except Fault Bool) :=
  (leavesOf ps).map fun q => d.satisfies q.text

mutual

/-- What a tree comes to if its queries, from left to right, come to these outcomes. -/
def verdict : Predicate → List (Except Fault Bool) → Except Fault Bool
  | leaf _, os => os.headD (.ok false)
  | all first more, os =>
    Connective.all.next (verdict first (os.take first.leaves.length))
      (verdictEach .all more (os.drop first.leaves.length))
  | any first more, os =>
    Connective.any.next (verdict first (os.take first.leaves.length))
      (verdictEach .any more (os.drop first.leaves.length))

def verdictEach (k : Connective) : List Predicate → List (Except Fault Bool) → Except Fault Bool
  | [], _ => .ok (!k.decisive)
  | p :: ps, os =>
    k.next (verdict p (os.take p.leaves.length)) (verdictEach k ps (os.drop p.leaves.length))

end

theorem verdict_node (k : Connective) (c : Predicate) (cs : List Predicate)
    (os : List (Except Fault Bool)) :
    (k.node c cs).verdict os = verdictEach k (c :: cs) os := by
  cases k with
  | all => rw [Connective.node, verdict, verdictEach]
  | any => rw [Connective.node, verdict, verdictEach]

theorem verdictEach_append (k : Connective) (c : Predicate) (cs : List Predicate)
    {first : List (Except Fault Bool)} (length : first.length = c.leaves.length)
    (rest : List (Except Fault Bool)) :
    verdictEach k (c :: cs) (first ++ rest) = k.next (c.verdict first) (verdictEach k cs rest) := by
  rw [verdictEach, ← length, List.take_left, List.drop_left]

theorem length_leavesOf_cons (c : Predicate) (cs : List Predicate) :
    (leavesOf (c :: cs)).length = c.leaves.length + (leavesOf cs).length := by
  rw [leavesOf, List.length_append]

/-! ## Reached queries -/

/-- The query at a place among the queries of a tree is reached: in front of its branch no child of
a node above it has the truth value that decides the node. -/
inductive Reached (d : Answers) : Predicate → Nat → Prop where
  | leaf (q : RootedQuery) : Reached d (.leaf q) 0
  | node (k : Connective) {c child : Predicate} {cs before after : List Predicate} {i : Nat} :
      c :: cs = before ++ child :: after →
      (∀ earlier ∈ before, earlier.holds d ≠ .ok k.decisive) → Reached d child i →
      Reached d (k.node c cs) ((leavesOf before).length + i)

/-- The same for the children of a node. -/
def ReachedAmong (d : Answers) (k : Connective) (children : List Predicate) (i : Nat) : Prop :=
  ∃ before child after j, children = before ++ child :: after ∧
    (∀ earlier ∈ before, earlier.holds d ≠ .ok k.decisive) ∧ Reached d child j ∧
    i = (leavesOf before).length + j

theorem reached_node_iff {k : Connective} {c : Predicate} {cs : List Predicate} {i : Nat} :
    Reached d (k.node c cs) i ↔ ReachedAmong d k (c :: cs) i := by
  constructor
  · generalize shape : k.node c cs = p
    intro h
    cases h with
    | leaf q => cases k <;> cases shape
    | node k' children undecided inside =>
      obtain ⟨rfl, rfl, rfl⟩ := Connective.node_inj.1 shape
      exact ⟨_, _, _, _, children, undecided, inside, rfl⟩
  · rintro ⟨before, child, after, j, children, undecided, inside, rfl⟩
    exact .node k children undecided inside

theorem not_reachedAmong_nil {k : Connective} {i : Nat} : ¬ ReachedAmong d k [] i := by
  rintro ⟨before, child, after, j, shape, _⟩
  cases before <;> cases shape

/-- The first child is reached, and those behind it if it does not decide. -/
theorem reachedAmong_cons_iff {k : Connective} {c : Predicate} {cs : List Predicate} {i : Nat} :
    ReachedAmong d k (c :: cs) i ↔ Reached d c i ∨ (c.holds d ≠ .ok k.decisive ∧
      ∃ j, i = c.leaves.length + j ∧ ReachedAmong d k cs j) := by
  constructor
  · rintro ⟨before, child, after, j, shape, undecided, inside, rfl⟩
    cases before with
    | nil =>
      cases shape
      left
      simpa [leavesOf] using inside
    | cons b before =>
      cases shape
      obtain ⟨first, others⟩ := List.forall_mem_cons.1 undecided
      right
      refine ⟨first, (leavesOf before).length + j, ?_, before, child, after, j, rfl, others, inside,
        rfl⟩
      rw [length_leavesOf_cons, Nat.add_assoc]
  · rintro (inside | ⟨first, j, rfl, before, child, after, j', rfl, others, inside, rfl⟩)
    · exact ⟨[], c, cs, i, rfl, nofun, inside, by simp [leavesOf]⟩
    · refine ⟨c :: before, child, after, j', rfl, ?_, inside, ?_⟩
      · exact List.forall_mem_cons.2 ⟨first, others⟩
      · rw [length_leavesOf_cons, Nat.add_assoc]

theorem Reached.lt {p : Predicate} {i : Nat} (h : Reached d p i) : i < p.leaves.length := by
  induction h with
  | leaf q => simp [leaves]
  | node k children _ _ ih =>
    rw [leaves_node, children]
    simp only [leavesOf_eq_flatMap, List.flatMap_append, List.flatMap_cons, List.length_append]
    omega

section Append

variable {c : Predicate} {cs : List Predicate} {k : Connective} {i : Nat}
  {first rest : List (Except Fault Bool)} (length : first.length = c.leaves.length)

include length

theorem getElem?_of_reached (h : Reached d c i) : (first ++ rest)[i]? = first[i]? :=
  List.getElem?_append_left (length ▸ h.lt)

theorem getElem?_behind (j : Nat) : (first ++ rest)[c.leaves.length + j]? = rest[j]? := by
  rw [List.getElem?_append_right (by omega)]
  congr 1
  omega

end Append

theorem length_outcomes (p : Predicate) : (p.outcomes d).length = p.leaves.length :=
  List.length_map _

theorem outcomesOf_cons (c : Predicate) (cs : List Predicate) :
    outcomesOf d (c :: cs) = c.outcomes d ++ outcomesOf d cs := by
  rw [outcomesOf, leavesOf, List.map_append]
  rfl

theorem outcomes_node (k : Connective) (c : Predicate) (cs : List Predicate) :
    (k.node c cs).outcomes d = outcomesOf d (c :: cs) := by
  rw [outcomes, leaves_node, outcomesOf]

/-! ## Queries that are not reached -/

theorem verdictEach_eq_holdsEach (k : Connective) {ps : List Predicate}
    (each : ∀ p ∈ ps, ∀ os : List (Except Fault Bool), os.length = p.leaves.length →
      (∀ i, Reached d p i → os[i]? = (p.outcomes d)[i]?) → p.verdict os = p.holds d)
    {os : List (Except Fault Bool)} (length : os.length = (leavesOf ps).length)
    (same : ∀ i, ReachedAmong d k ps i → os[i]? = (outcomesOf d ps)[i]?) :
    verdictEach k ps os = k.holdsEach d ps := by
  induction ps generalizing os with
  | nil => rw [verdictEach, holdsEach_nil]
  | cons c cs ih =>
    obtain ⟨here, later⟩ := List.forall_mem_cons.1 each
    rw [length_leavesOf_cons] at length
    rw [outcomesOf_cons] at same
    obtain ⟨first, rest, rfl, long⟩ :
        ∃ first rest, os = first ++ rest ∧ first.length = c.leaves.length := by
      refine ⟨_, _, (List.take_append_drop c.leaves.length os).symm, ?_⟩
      rw [List.length_take]
      omega
    have firstSame : c.verdict first = c.holds d := by
      apply here first long
      intro i inside
      have whole := same i (reachedAmong_cons_iff.2 (.inl inside))
      rwa [getElem?_of_reached long inside,
        getElem?_of_reached (length_outcomes c) inside] at whole
    rw [verdictEach_append k c cs long, holdsEach_cons, firstSame]
    by_cases decided : c.holds d = .ok k.decisive
    · rw [decided, Connective.next_decisive, Connective.next_decisive]
    · congr 1
      apply ih later
      · rw [List.length_append] at length
        omega
      · intro j inside
        have whole := same (c.leaves.length + j)
          (reachedAmong_cons_iff.2 (.inr ⟨decided, j, rfl, inside⟩))
        rwa [getElem?_behind long, getElem?_behind (length_outcomes c)] at whole

/-- What a tree comes to is settled by the queries that are reached. -/
theorem verdict_eq_holds {p : Predicate} {os : List (Except Fault Bool)}
    (length : os.length = p.leaves.length)
    (same : ∀ i, Reached d p i → os[i]? = (p.outcomes d)[i]?) : p.verdict os = p.holds d := by
  induction p using nodeInduction generalizing os with
  | leaf q =>
    have only := same 0 (.leaf q)
    simp only [outcomes, leaves, List.map_cons, List.map_nil, List.getElem?_cons_zero] at only
    rw [verdict, holds, List.headD_eq_head?_getD, List.head?_eq_getElem?, only, Option.getD_some]
  | node k c cs ih =>
    rw [verdict_node, holds_node]
    rw [leaves_node] at length
    rw [outcomes_node] at same
    exact verdictEach_eq_holdsEach k (fun p mem os => ih p mem) length
      fun i inside => same i (reached_node_iff.2 inside)

/-! ## Queries that fail -/

/-- At no place that is reached is there a fault. -/
def NoneFails (reached : Nat → Prop) (os : List (Except Fault Bool)) : Prop :=
  ∀ i, reached i → ∃ b, os[i]? = some (.ok b)

/-- The first fault at a place that is reached. -/
def FirstFails (reached : Nat → Prop) (os : List (Except Fault Bool)) (e : Fault) : Prop :=
  ∃ i, reached i ∧ os[i]? = some (.error e) ∧
    ∀ j < i, reached j → ∃ b, os[j]? = some (.ok b)

theorem FirstFails.unique {reached : Nat → Prop} {os : List (Except Fault Bool)} {e e' : Fault}
    (h : FirstFails reached os e) (h' : FirstFails reached os e') : e = e' := by
  obtain ⟨i, here, fault, earlier⟩ := h
  obtain ⟨i', here', fault', earlier'⟩ := h'
  rcases Nat.lt_trichotomy i i' with before | rfl | behind
  · obtain ⟨b, fine⟩ := earlier' i before here
    rw [fault] at fine
    cases fine
  · rw [fault] at fault'
    cases fault'
    rfl
  · obtain ⟨b, fine⟩ := earlier i' behind here'
    rw [fault'] at fine
    cases fine

theorem not_firstFails_of_noneFails {reached : Nat → Prop} {os : List (Except Fault Bool)}
    (h : NoneFails reached os) (e : Fault) : ¬ FirstFails reached os e := by
  rintro ⟨i, here, fault, _⟩
  obtain ⟨b, fine⟩ := h i here
  rw [fault] at fine
  cases fine

/-- What evaluation comes to: a truth value if no query that is reached fails, or else the fault of
the first that does. -/
def Evaluates (reached : Nat → Prop) (os : List (Except Fault Bool)) (x : Except Fault Bool) :
    Prop :=
  (∃ b, x = .ok b ∧ NoneFails reached os) ∨ ∃ e, x = .error e ∧ FirstFails reached os e

theorem Evaluates.eq_error_iff {reached : Nat → Prop} {os : List (Except Fault Bool)}
    {x : Except Fault Bool} (h : Evaluates reached os x) (e : Fault) :
    x = .error e ↔ FirstFails reached os e := by
  rcases h with ⟨b, rfl, fine⟩ | ⟨e', rfl, fails⟩
  · exact iff_of_false nofun (not_firstFails_of_noneFails fine e)
  · constructor
    · rintro ⟨⟩
      exact fails
    · intro fails'
      rw [fails.unique fails']

section Cons

variable {c : Predicate} {cs : List Predicate} {k : Connective}

theorem getElem?_outcomesOf_first {i : Nat} (inside : Reached d c i) :
    (outcomesOf d (c :: cs))[i]? = (c.outcomes d)[i]? := by
  rw [outcomesOf_cons, getElem?_of_reached (length_outcomes c) inside]

theorem getElem?_outcomesOf_behind (j : Nat) :
    (outcomesOf d (c :: cs))[c.leaves.length + j]? = (outcomesOf d cs)[j]? := by
  rw [outcomesOf_cons, getElem?_behind (length_outcomes c)]

theorem noneFails_cons (fine : NoneFails (Reached d c) (c.outcomes d))
    (others : c.holds d ≠ .ok k.decisive → NoneFails (ReachedAmong d k cs) (outcomesOf d cs)) :
    NoneFails (ReachedAmong d k (c :: cs)) (outcomesOf d (c :: cs)) := by
  intro i inside
  rcases reachedAmong_cons_iff.1 inside with first | ⟨undecided, j, rfl, behind⟩
  · rw [getElem?_outcomesOf_first first]
    exact fine i first
  · rw [getElem?_outcomesOf_behind]
    exact others undecided j behind

theorem firstFails_here {e : Fault} (fails : FirstFails (Reached d c) (c.outcomes d) e) :
    FirstFails (ReachedAmong d k (c :: cs)) (outcomesOf d (c :: cs)) e := by
  obtain ⟨i, reached, fault, before⟩ := fails
  refine ⟨i, reachedAmong_cons_iff.2 (.inl reached), ?_, ?_⟩
  · rw [getElem?_outcomesOf_first reached]
    exact fault
  · intro j lt inside
    rcases reachedAmong_cons_iff.1 inside with first | ⟨_, j', rfl, _⟩
    · rw [getElem?_outcomesOf_first first]
      exact before j lt first
    · have := reached.lt
      omega

theorem firstFails_behind {e : Fault} (fine : NoneFails (Reached d c) (c.outcomes d))
    (undecided : c.holds d ≠ .ok k.decisive)
    (fails : FirstFails (ReachedAmong d k cs) (outcomesOf d cs) e) :
    FirstFails (ReachedAmong d k (c :: cs)) (outcomesOf d (c :: cs)) e := by
  obtain ⟨i, reached, fault, before⟩ := fails
  refine ⟨c.leaves.length + i, reachedAmong_cons_iff.2 (.inr ⟨undecided, i, rfl, reached⟩), ?_, ?_⟩
  · rw [getElem?_outcomesOf_behind]
    exact fault
  · intro j lt inside
    rcases reachedAmong_cons_iff.1 inside with first | ⟨_, j', rfl, behind⟩
    · rw [getElem?_outcomesOf_first first]
      exact fine j first
    · rw [getElem?_outcomesOf_behind]
      exact before j' (by omega) behind

end Cons

theorem evaluates_holdsEach (k : Connective) {ps : List Predicate}
    (each : ∀ p ∈ ps, Evaluates (Reached d p) (p.outcomes d) (p.holds d)) :
    Evaluates (ReachedAmong d k ps) (outcomesOf d ps) (k.holdsEach d ps) := by
  induction ps with
  | nil => exact .inl ⟨_, holdsEach_nil k, fun i inside => (not_reachedAmong_nil inside).elim⟩
  | cons c cs ih =>
    obtain ⟨here, later⟩ := List.forall_mem_cons.1 each
    rw [holdsEach_cons]
    rcases here with ⟨b, value, fine⟩ | ⟨e, fault, fails⟩
    · by_cases decides : b = k.decisive
      · subst decides
        rw [value, Connective.next_decisive]
        exact .inl ⟨_, rfl, noneFails_cons fine fun undecided => absurd value undecided⟩
      · have undecided : c.holds d ≠ .ok k.decisive := by
          rw [value]
          exact fun same => decides (Except.ok.inj same)
        rw [value, Connective.next_of_ne decides]
        rcases ih later with ⟨b', result, others⟩ | ⟨e, fault, fails⟩
        · exact .inl ⟨b', result, noneFails_cons fine fun _ => others⟩
        · exact .inr ⟨e, fault, firstFails_behind fine undecided fails⟩
    · rw [fault, Connective.next_error]
      exact .inr ⟨e, rfl, firstFails_here fails⟩

theorem evaluates_holds (p : Predicate) : Evaluates (Reached d p) (p.outcomes d) (p.holds d) := by
  induction p using nodeInduction with
  | leaf q =>
    have only : ((leaf q).outcomes d)[0]? = some (d.satisfies q.text) := by simp [outcomes, leaves]
    rw [holds]
    cases outcome : d.satisfies q.text with
    | ok b =>
      refine .inl ⟨b, rfl, fun i inside => ⟨b, ?_⟩⟩
      have first : i = 0 := by simpa [leaves] using inside.lt
      rw [first, only, outcome]
    | error e => exact .inr ⟨e, rfl, 0, .leaf q, only.trans (congrArg some outcome), nofun⟩
  | node k c cs ih =>
    rw [holds_node, outcomes_node]
    have children := evaluates_holdsEach k ih
    have same : ReachedAmong d k (c :: cs) = Reached d (k.node c cs) :=
      funext fun i => propext reached_node_iff.symm
    rwa [same] at children

/-! ## More truth -/

/-- Two truth values of which the second holds if the first does. -/
def Rises (x y : Except Fault Bool) : Prop := ∃ a b, x = .ok a ∧ y = .ok b ∧ (a = true → b = true)

theorem Rises.next {x x' y y' : Except Fault Bool} (k : Connective) (first : Rises x x')
    (rest : Rises y y') : Rises (k.next x y) (k.next x' y') := by
  obtain ⟨a, a', rfl, rfl, up⟩ := first
  obtain ⟨b, b', rfl, rfl, up'⟩ := rest
  refine ⟨if a = k.decisive then a else b, if a' = k.decisive then a' else b', ?_, ?_, ?_⟩
  · cases k <;> cases a <;> rfl
  · cases k <;> cases a' <;> rfl
  · cases k <;> cases a <;> cases a' <;> simp_all [Connective.decisive]

theorem rises_verdictEach (k : Connective) {ps : List Predicate}
    (each : ∀ p ∈ ps, ∀ xs ys : List (Except Fault Bool), xs.length = p.leaves.length →
      List.Forall₂ Rises xs ys → Rises (p.verdict xs) (p.verdict ys))
    {xs ys : List (Except Fault Bool)} (length : xs.length = (leavesOf ps).length)
    (rises : List.Forall₂ Rises xs ys) : Rises (verdictEach k ps xs) (verdictEach k ps ys) := by
  induction ps generalizing xs ys with
  | nil =>
    rw [verdictEach, verdictEach]
    exact ⟨_, _, rfl, rfl, id⟩
  | cons c cs ih =>
    obtain ⟨here, later⟩ := List.forall_mem_cons.1 each
    rw [length_leavesOf_cons] at length
    rw [verdictEach, verdictEach]
    apply Rises.next k
    · apply here
      · rw [List.length_take]
        omega
      · exact List.forall₂_take _ rises
    · apply ih later
      · rw [List.length_drop]
        omega
      · exact List.forall₂_drop _ rises

/-- Where a query that did not hold comes to hold, a tree that held goes on to hold. -/
theorem rises_verdict {p : Predicate} {xs ys : List (Except Fault Bool)}
    (length : xs.length = p.leaves.length) (rises : List.Forall₂ Rises xs ys) :
    Rises (p.verdict xs) (p.verdict ys) := by
  induction p using nodeInduction generalizing xs ys with
  | leaf q =>
    cases rises with
    | nil => simp [leaves] at length
    | cons first _ =>
      rw [verdict, verdict]
      exact first
  | node k c cs ih =>
    rw [leaves_node] at length
    rw [verdict_node, verdict_node]
    exact rises_verdictEach k (fun p mem xs ys => ih p mem) length rises

/-- A tree has queries, and what it comes to is settled by what they come to, taken from left to
right, and even by what those come to that are reached, whatever becomes of the others. If all of
them have truth values, then the tree has the value of its formula, also with children in another
order or with nodes below nodes of their own kind replaced by their children, and it does not cease
to hold where more of the queries hold. Evaluation fails exactly if a query that is reached fails,
with the fault of the first such query. -/
theorem trees_mean_formulas (p : Predicate) (d : Answers) :
    p.leaves ≠ [] ∧
    p.holds d = p.verdict (p.outcomes d) ∧
    (∀ os : List (Except Fault Bool), os.length = p.leaves.length →
      (∀ i, Reached d p i → os[i]? = (p.outcomes d)[i]?) → p.verdict os = p.holds d) ∧
    (∀ v : RootedQuery → Bool, (∀ q ∈ p.leaves, d.satisfies q.text = .ok (v q)) →
      p.holds d = .ok (p.value v) ∧ ∀ r, Rearranged p r → r.holds d = .ok (p.value v)) ∧
    (∀ xs ys : List Bool, xs.length = p.leaves.length →
      List.Forall₂ (fun x y => x = true → y = true) xs ys →
      p.verdict (xs.map .ok) = .ok true → p.verdict (ys.map .ok) = .ok true) ∧
    ∀ e, p.holds d = .error e ↔ ∃ i, Reached d p i ∧ (p.outcomes d)[i]? = some (.error e) ∧
      ∀ j < i, Reached d p j → ∃ b, (p.outcomes d)[j]? = some (.ok b) := by
  refine ⟨p.leaves_ne_nil, ?_, fun os => verdict_eq_holds, ?_, ?_, ?_⟩
  · exact (verdict_eq_holds (length_outcomes p) fun _ _ => rfl).symm
  · intro v values
    refine ⟨holds_eq_value values, ?_⟩
    intro r rearranged
    rw [rearranged.value_eq v]
    apply holds_eq_value
    intro q asked
    exact values q (rearranged.leaves_perm.mem_iff.2 asked)
  · intro xs ys length up holds
    have rises : List.Forall₂ Rises (xs.map .ok) (ys.map .ok) := by
      rw [List.forall₂_map_left_iff, List.forall₂_map_right_iff]
      exact up.imp fun x y more => ⟨x, y, rfl, rfl, more⟩
    obtain ⟨a, b, before, after, more⟩ := rises_verdict (by rwa [List.length_map]) rises
    rw [holds] at before
    rw [after, more (Except.ok.inj before).symm]
  · intro e
    exact (evaluates_holds p).eq_error_iff e

end Intake.Predicate
