import Intake.Proofs.Query.Guarding
import Intake.Proofs.Sequence

set_option autoImplicit false

/-!
# Queries that break off

A query that can be read breaks off at a document for one of three causes: an index is asked of a
number other than zero or of `true`, a slice with strides of zero is taken of anything but null, or
two routes are asked for what they have in common. In an operand of a filter the first cause only
makes the operand false. `BreaksOff` says at which value which cause is met first, and
`follow_eq_error_iff` that nothing else breaks a route off.
-/

namespace Intake.Query

/-! ## Traversals -/

theorem flatMapM_eq_error_iff {f : Json → Matches} {vs : List Json} {e : MatchFault} :
    flatMapM f vs = .error e ↔ FirstRefused f vs e := by
  induction vs with
  | nil => exact iff_of_false nofun not_firstRefused_nil
  | cons v vs ih =>
    rw [flatMapM]
    cases first : f v with
    | error e' =>
      rw [firstRefused_cons_of_error first]
      simp [bind, Except.bind]
    | ok ws =>
      rw [firstRefused_cons_of_ok first, ← ih]
      cases others : flatMapM f vs <;> simp [bind, Except.bind, pure, Except.pure]

theorem selectM_eq_error_iff {f : Json → Except MatchFault Bool} {vs : List Json}
    {e : MatchFault} : selectM f vs = .error e ↔ FirstRefused f vs e := by
  induction vs with
  | nil => exact iff_of_false nofun not_firstRefused_nil
  | cons v vs ih =>
    rw [selectM]
    cases first : f v with
    | error e' =>
      rw [firstRefused_cons_of_error first]
      simp [bind, Except.bind]
    | ok b =>
      rw [firstRefused_cons_of_ok first, ← ih]
      cases others : selectM f vs <;> simp [bind, Except.bind, pure, Except.pure]

/-- The matches of one part before those of another. -/
def both (x y : Matches) : Matches := do
  let first ← x
  let others ← y
  return first ++ others

theorem both_assoc (x y z : Matches) : both (both x y) z = both x (both y z) := by
  cases x with
  | error e => rfl
  | ok xs =>
    cases y with
    | error e => rfl
    | ok ys =>
      cases z with
      | error e => rfl
      | ok zs => exact congrArg Except.ok (List.append_assoc xs ys zs)

theorem flatMapM_append (f : Json → Matches) (vs ws : List Json) :
    flatMapM f (vs ++ ws) = both (flatMapM f vs) (flatMapM f ws) := by
  induction vs with
  | nil =>
    show flatMapM f ws = both (.ok []) (flatMapM f ws)
    cases flatMapM f ws <;> rfl
  | cons v vs ih =>
    show both (f v) (flatMapM f (vs ++ ws)) = both (both (f v) (flatMapM f vs)) (flatMapM f ws)
    rw [ih, both_assoc]

theorem flatMapM_flatMapM (f : Json → Matches) (g : Json → List Json) (vs : List Json) :
    flatMapM (fun v => flatMapM f (g v)) vs = flatMapM f (vs.flatMap g) := by
  induction vs with
  | nil => rfl
  | cons v vs ih =>
    rw [List.flatMap_cons, flatMapM_append, ← ih]
    rfl

theorem flatMapM_singleton (f : Json → Matches) (v : Json) : flatMapM f [v] = f v := by
  show both (f v) (.ok []) = f v
  cases f v with
  | error e => rfl
  | ok vs => exact congrArg Except.ok (List.append_nil vs)

mutual

/-- A value and all that is below it, each before what is below it. -/
def nodes : Json → List Json
  | .atom a => [.atom a]
  | .array xs => .array xs :: nodesOfItems xs
  | .object ms => .object ms :: nodesOfMembers ms

def nodesOfItems : List Json → List Json
  | [] => []
  | v :: vs => nodes v ++ nodesOfItems vs

def nodesOfMembers : List (Text × Json) → List Json
  | [] => []
  | (_, v) :: ms => nodes v ++ nodesOfMembers ms

end

mutual

theorem descend_eq (f : Json → Matches) : (v : Json) → descend f v = flatMapM f (nodes v)
  | .atom a => by rw [descend, nodes, flatMapM_singleton]
  | .array xs => by
    rw [descend, nodes, descendItems_eq f xs]
    rfl
  | .object ms => by
    rw [descend, nodes, descendMembers_eq f ms]
    rfl

theorem descendItems_eq (f : Json → Matches) :
    (vs : List Json) → descendItems f vs = flatMapM f (nodesOfItems vs)
  | [] => by rw [descendItems, nodesOfItems, flatMapM]
  | v :: vs => by
    rw [descendItems, nodesOfItems, flatMapM_append, descend_eq f v, descendItems_eq f vs]
    rfl

theorem descendMembers_eq (f : Json → Matches) :
    (ms : List (Text × Json)) → descendMembers f ms = flatMapM f (nodesOfMembers ms)
  | [] => by rw [descendMembers, nodesOfMembers, flatMapM]
  | (_, v) :: ms => by
    rw [descendMembers, nodesOfMembers, flatMapM_append, descend_eq f v, descendMembers_eq f ms]
    rfl

end

/-! ## Causes -/

/-- A number other than zero, or `true`: it has no elements to count. -/
def isCountless : Json → Bool
  | .atom (.bool b) => b
  | .atom (.int n) => n ≠ 0
  | .atom (.double x) => !x.same (.finite false 0)
  | _ => false

theorem indices_eq_error_iff {is : List Int} {v : Json} {e : MatchFault} :
    indices is v = .error e ↔ isCountless v = true ∧ e = .incomparable := by
  cases v with
  | array xs => simp [indices, isCountless]
  | object ms => simp [indices, isCountless]
  | atom a =>
    cases a with
    | null => simp [indices, isCountless]
    | text s => simp [indices, isCountless]
    | bool b => cases b <;> simp [indices, isCountless, eq_comm]
    | int n => by_cases zero : n = 0 <;> simp [indices, isCountless, zero, eq_comm]
    | double x =>
      cases zero : x.same (.finite false 0) <;> simp [indices, isCountless, zero, eq_comm]

theorem slice_eq_error_iff {start stop stride : Option Int} {v : Json} {e : MatchFault} :
    slice start stop stride v = .error e ↔
      stride = some 0 ∧ v.isNull = false ∧ e = .zeroStride := by
  unfold slice sliced
  cases stride with
  | none => cases v.isNull <;> simp
  | some n => by_cases zero : n = 0 <;> cases v.isNull <;> simp [zero, eq_comm]

/-- The route of an operand. -/
def Condition.route? : Condition → Option Route
  | .matched r => some r
  | .unmatched r => some r
  | .compare r _ _ => some r
  | .both _ _ => none
  | .guarded _ => none

mutual

/-- Following a route from a value breaks off with a fault. -/
inductive Route.BreaksOff : Route → Json → MatchFault → Prop where
  | index {is : List Int} {v : Json} : isCountless v = true →
      Route.BreaksOff (.select (.indices is)) v .incomparable
  | stride {start stop : Option Int} {v : Json} : v.isNull = false →
      Route.BreaksOff (.select (.slice start stop (some 0))) v .zeroStride
  | common {left right : Route} {v : Json} : Route.BreaksOff (.common left right) v .common
  | filter {c : Condition} {v w : Json} {earlier later : List Json} {e : MatchFault} :
      candidates v = earlier ++ w :: later →
      (∀ u ∈ earlier, ∃ b, c.holds skipQuietly u = .ok b) → Condition.BreaksOff c w e →
      Route.BreaksOff (.select (.filter c)) v e
  | childLeft {left right : Route} {v : Json} {e : MatchFault} : Route.BreaksOff left v e →
      Route.BreaksOff (.child left right) v e
  | childRight {left right : Route} {v w : Json} {earlier later : List Json} {e : MatchFault} :
      left.follow skipQuietly v = .ok (earlier ++ w :: later) →
      (∀ u ∈ earlier, ∃ ws, right.follow skipQuietly u = .ok ws) → Route.BreaksOff right w e →
      Route.BreaksOff (.child left right) v e
  | descendLeft {left right : Route} {v : Json} {e : MatchFault} : Route.BreaksOff left v e →
      Route.BreaksOff (.descend left right) v e
  | descendRight {left right : Route} {v w : Json} {found earlier later : List Json}
      {e : MatchFault} : left.follow skipQuietly v = .ok found →
      found.flatMap nodes = earlier ++ w :: later →
      (∀ u ∈ earlier, ∃ ws, right.follow skipQuietly u = .ok ws) → Route.BreaksOff right w e →
      Route.BreaksOff (.descend left right) v e

/-- Asking whether a condition holds of a value breaks off with a fault. -/
inductive Condition.BreaksOff : Condition → Json → MatchFault → Prop where
  | operand {c : Condition} {r : Route} {v : Json} {e : MatchFault} : c.route? = some r →
      e ≠ .incomparable → Route.BreaksOff r v e → Condition.BreaksOff c v e
  | bothLeft {a b : Condition} {v : Json} {e : MatchFault} : Condition.BreaksOff a v e →
      Condition.BreaksOff (.both a b) v e
  | bothRight {a b : Condition} {v : Json} {e : MatchFault} : a.holds skipQuietly v = .ok true →
      Condition.BreaksOff b v e → Condition.BreaksOff (.both a b) v e
  | guarded {c : Condition} {v : Json} {e : MatchFault} : Condition.BreaksOff c v e →
      Condition.BreaksOff (.guarded c) v e

end

theorem lt_error {a b : Sortable} {e : MatchFault} (h : a.lt b = .error e) : e = .incomparable := by
  unfold Sortable.lt at h
  split at h <;> cases h
  rfl

theorem ordered_error {op : Comparator} {a b : Sortable} {e : MatchFault}
    (h : ordered op a b = .error e) : e = .incomparable := by
  have mapped : ∀ {x : Except MatchFault Bool} {f : Bool → Bool}, x.map f = .error e →
      x = .error e := by
    rintro (e' | b) f h <;> cases h
    rfl
  cases op with
  | eq => cases h
  | twoEq => cases h
  | ne => cases h
  | lt => exact lt_error h
  | gt => exact lt_error h
  | le => exact lt_error (mapped h)
  | ge => exact lt_error (mapped h)

theorem holdsFor_error {op : Comparator} {l : Literal} {v : Json} {e : MatchFault}
    (h : holdsFor op l v = .error e) : e = .incomparable := by
  unfold holdsFor compareWith at h
  split at h
  · split at h
    · exact ordered_error h
    · split at h <;> cases h
      rfl
  · cases h

/-- Comparing breaks off only at what cannot be compared. -/
theorem anyHolds_error {op : Comparator} {l : Literal} {vs : List Json} {e : MatchFault}
    (h : anyHolds op l vs = .error e) : e = .incomparable := by
  induction vs with
  | nil => cases h
  | cons v vs ih =>
    rw [anyHolds] at h
    rcases bind_eq_error_iff.1 h with first | ⟨b, _, others⟩
    · exact holdsFor_error first
    · rcases bind_eq_error_iff.1 others with others | ⟨c, _, done⟩
      · exact ih others
      · cases done

/-- In an operand only what cannot be compared does not break off. -/
theorem orSkip_eq_error_iff {x : Except MatchFault Bool} {e : MatchFault} :
    orSkip (.ok false) x = .error e ↔ e ≠ .incomparable ∧ x = .error e := by
  unfold orSkip
  split
  · simp [eq_comm]
  · next other =>
    refine ⟨fun h => ⟨?_, h⟩, And.right⟩
    rintro rfl
    exact other h

theorem bind_tests_eq_error_iff {x : Matches} {test : List Json → Except MatchFault Bool}
    (fine : ∀ {ws e}, test ws = .error e → e = .incomparable) {e : MatchFault} :
    orSkip (.ok false) (x.bind test) = .error e ↔ e ≠ .incomparable ∧ x = .error e := by
  rw [orSkip_eq_error_iff]
  refine and_congr_right fun ne => ?_
  cases x with
  | error e' => simp [Except.bind]
  | ok ws => exact ⟨fun h => absurd (fine h) ne, nofun⟩

/-- An operand breaks off where its route does, except at what cannot be compared. -/
theorem Condition.operand_eq_error_iff {c : Condition} {r : Route} (h : c.route? = some r)
    {v : Json} {e : MatchFault} :
    c.holds skipQuietly v = .error e ↔ e ≠ .incomparable ∧ r.follow skipQuietly v = .error e := by
  have mapped : ∀ (x : Matches) (f : List Json → Bool), x.map f = x.bind fun ws => .ok (f ws) := by
    intro x f
    cases x <;> rfl
  cases c with
  | matched r =>
    cases h
    rw [Condition.holds_matched, mapped]
    refine bind_tests_eq_error_iff fun refused => ?_
    cases refused
  | unmatched r =>
    cases h
    rw [Condition.holds_unmatched, mapped]
    refine bind_tests_eq_error_iff fun refused => ?_
    cases refused
  | compare r op l =>
    cases h
    rw [Condition.holds_compare]
    exact bind_tests_eq_error_iff anyHolds_error
  | both a b => cases h
  | guarded c => cases h

theorem Condition.breaksOff_iff_of_route? {c : Condition} {r : Route} (h : c.route? = some r)
    {v : Json} {e : MatchFault} : e ≠ .incomparable ∧ r.BreaksOff v e ↔ c.BreaksOff v e := by
  constructor
  · rintro ⟨ne, bad⟩
    exact .operand h ne bad
  · intro broken
    cases broken with
    | operand same ne bad =>
      rw [h] at same
      cases same
      exact ⟨ne, bad⟩
    | bothLeft _ => cases h
    | bothRight _ _ => cases h
    | guarded _ => cases h

theorem Condition.both_eq_error_iff {a b : Condition} {v : Json} {e : MatchFault} :
    (Condition.both a b).holds skipQuietly v = .error e ↔ a.holds skipQuietly v = .error e ∨
      (a.holds skipQuietly v = .ok true ∧ b.holds skipQuietly v = .error e) := by
  rw [Condition.holds_both]
  cases a.holds skipQuietly v with
  | error e' => simp [bind, Except.bind]
  | ok holds => cases holds <;> simp [bind, Except.bind, pure, Except.pure]

theorem Route.descend_eq_error_iff {left right : Route} {v : Json} {e : MatchFault} :
    (Route.descend left right).follow skipQuietly v = .error e ↔
      left.follow skipQuietly v = .error e ∨ ∃ found, left.follow skipQuietly v = .ok found ∧
        FirstRefused (fun w => right.follow skipQuietly w) (found.flatMap nodes) e := by
  have preorder : (Query.descend fun w => right.follow skipQuietly w) =
      fun w => flatMapM (fun u => right.follow skipQuietly u) (nodes w) :=
    funext (descend_eq _)
  rw [Route.follow_descend, bind_eq_error_iff]
  simp only [preorder, flatMapM_flatMapM, flatMapM_eq_error_iff]

mutual

theorem Route.follow_eq_error_iff : (r : Route) → ∀ {v : Json} {e : MatchFault},
    r.follow skipQuietly v = .error e ↔ r.BreaksOff v e
  | .root => by
    rw [Route.follow_root]
    exact ⟨nofun, nofun⟩
  | .this => by
    rw [Route.follow_this]
    exact ⟨nofun, nofun⟩
  | .select (.fields names) => by
    rw [Route.follow_select, Selector.select_fields]
    exact ⟨nofun, nofun⟩
  | .select .each => by
    rw [Route.follow_select, Selector.select_each]
    exact ⟨nofun, nofun⟩
  | .select (.indices is) => by
    rw [Route.follow_select, Selector.select_indices, indices_eq_error_iff]
    constructor
    · rintro ⟨countless, rfl⟩
      exact .index countless
    · rintro ⟨countless⟩
      exact ⟨‹_›, rfl⟩
  | .select (.slice start stop stride) => by
    rw [Route.follow_select, Selector.select_slice, slice_eq_error_iff]
    constructor
    · rintro ⟨rfl, some, rfl⟩
      exact .stride some
    · rintro ⟨⟩
      exact ⟨rfl, ‹_›, rfl⟩
  | .select (.filter c) => by
    rw [Route.follow_select, Selector.select_filter, selectM_eq_error_iff]
    constructor
    · rintro ⟨earlier, w, later, shape, fine, bad⟩
      exact .filter shape fine ((Condition.holds_eq_error_iff c).1 bad)
    · intro h
      cases h with
      | filter shape fine bad =>
        exact ⟨_, _, _, shape, fine, (Condition.holds_eq_error_iff c).2 bad⟩
  | .child left right => by
    rw [Route.follow_child, bind_eq_error_iff]
    simp only [flatMapM_eq_error_iff]
    constructor
    · rintro (bad | ⟨found, ok, earlier, w, later, rfl, fine, bad⟩)
      · exact .childLeft ((Route.follow_eq_error_iff left).1 bad)
      · exact .childRight ok fine ((Route.follow_eq_error_iff right).1 bad)
    · intro h
      cases h with
      | childLeft bad => exact .inl ((Route.follow_eq_error_iff left).2 bad)
      | childRight ok fine bad =>
        exact .inr ⟨_, ok, _, _, _, rfl, fine, (Route.follow_eq_error_iff right).2 bad⟩
  | .descend left right => by
    rw [Route.descend_eq_error_iff]
    constructor
    · rintro (bad | ⟨found, ok, earlier, w, later, shape, fine, bad⟩)
      · exact .descendLeft ((Route.follow_eq_error_iff left).1 bad)
      · exact .descendRight ok shape fine ((Route.follow_eq_error_iff right).1 bad)
    · intro h
      cases h with
      | descendLeft bad => exact .inl ((Route.follow_eq_error_iff left).2 bad)
      | descendRight ok shape fine bad =>
        exact .inr ⟨_, ok, _, _, _, shape, fine, (Route.follow_eq_error_iff right).2 bad⟩
  | .common left right => by
    rw [Route.follow_common]
    constructor
    · intro h
      cases h
      exact .common
    · intro h
      cases h
      rfl

theorem Condition.holds_eq_error_iff : (c : Condition) → ∀ {v : Json} {e : MatchFault},
    c.holds skipQuietly v = .error e ↔ c.BreaksOff v e
  | .matched r => by
    rw [Condition.operand_eq_error_iff rfl, Route.follow_eq_error_iff r]
    exact Condition.breaksOff_iff_of_route? rfl
  | .unmatched r => by
    rw [Condition.operand_eq_error_iff rfl, Route.follow_eq_error_iff r]
    exact Condition.breaksOff_iff_of_route? rfl
  | .compare r op l => by
    rw [Condition.operand_eq_error_iff rfl, Route.follow_eq_error_iff r]
    exact Condition.breaksOff_iff_of_route? rfl
  | .both a b => by
    rw [Condition.both_eq_error_iff, Condition.holds_eq_error_iff a, Condition.holds_eq_error_iff b]
    constructor
    · rintro (bad | ⟨holds, bad⟩)
      · exact .bothLeft bad
      · exact .bothRight holds bad
    · intro h
      cases h with
      | operand none => cases none
      | bothLeft bad => exact .inl bad
      | bothRight holds bad => exact .inr ⟨holds, bad⟩
  | .guarded c => by
    rw [Condition.holds_guarded, Condition.holds_eq_error_iff c]
    constructor
    · exact .guarded
    · intro h
      cases h with
      | operand none => cases none
      | guarded bad => exact bad

end

/-! ## Queries that are safe -/

mutual

/-- No stride is zero, nothing in common is asked for, and there is no index outside of filters,
unless it may be there. -/
def Selector.isSafe (mayIndex : Bool) : Selector → Bool
  | .fields _ => true
  | .indices _ => mayIndex
  | .each => true
  | .slice _ _ stride => stride ≠ some 0
  | .filter c => c.isSafe

/-- In an operand there may be indices. -/
def Condition.isSafe : Condition → Bool
  | .matched r => r.isSafe true
  | .unmatched r => r.isSafe true
  | .compare r _ _ => r.isSafe true
  | .both a b => a.isSafe && b.isSafe
  | .guarded c => c.isSafe

def Route.isSafe (mayIndex : Bool) : Route → Bool
  | .root => true
  | .this => true
  | .select s => s.isSafe mayIndex
  | .child left right => left.isSafe mayIndex && right.isSafe mayIndex
  | .descend left right => left.isSafe mayIndex && right.isSafe mayIndex
  | .common _ _ => false

end

theorem Condition.isSafe_of_route? {c : Condition} {r : Route} (h : c.route? = some r) :
    c.isSafe = r.isSafe true := by
  cases c with
  | matched r =>
    cases h
    rfl
  | unmatched r =>
    cases h
    rfl
  | compare r op l =>
    cases h
    rfl
  | both a b => cases h
  | guarded c => cases h

mutual

/-- A safe route breaks off only at an index, if it may have one. -/
theorem Route.BreaksOff.of_isSafe {mayIndex : Bool} : {r : Route} → {v : Json} → {e : MatchFault} →
    r.BreaksOff v e → r.isSafe mayIndex = true → mayIndex = true ∧ e = .incomparable
  | _, _, _, .index _ => fun safe => ⟨safe, rfl⟩
  | _, _, _, .stride _ => fun safe => by cases safe
  | _, _, _, .common => fun safe => by cases safe
  | _, _, _, .filter _ _ bad => fun safe => (bad.not_isSafe safe).elim
  | _, _, _, .childLeft bad => fun safe => bad.of_isSafe (Bool.and_eq_true_iff.1 safe).1
  | _, _, _, .childRight _ _ bad => fun safe => bad.of_isSafe (Bool.and_eq_true_iff.1 safe).2
  | _, _, _, .descendLeft bad => fun safe => bad.of_isSafe (Bool.and_eq_true_iff.1 safe).1
  | _, _, _, .descendRight _ _ _ bad => fun safe => bad.of_isSafe (Bool.and_eq_true_iff.1 safe).2

theorem Condition.BreaksOff.not_isSafe : {c : Condition} → {v : Json} → {e : MatchFault} →
    c.BreaksOff v e → ¬ c.isSafe = true
  | _, _, _, .operand same ne bad => fun safe =>
    ne (bad.of_isSafe (Condition.isSafe_of_route? same ▸ safe)).2
  | _, _, _, .bothLeft bad => fun safe => bad.not_isSafe (Bool.and_eq_true_iff.1 safe).1
  | _, _, _, .bothRight _ bad => fun safe => bad.not_isSafe (Bool.and_eq_true_iff.1 safe).2
  | _, _, _, .guarded bad => bad.not_isSafe

end

end Intake.Query
