import Intake.Query.Match

set_option autoImplicit false

/-!
# Guarded queries

Before a route is followed each operand of its filters gets a guard, at any depth
(`Route.guarded_guard`), and a second time nothing changes (`Route.guard_guard`). What a guarded
route leads to is found by the same recursion as what any route leads to, except that an operand
which asks for something incomparable is skipped (`Condition.holds_matched` and its siblings): these
equations are all that is used of guards from here on.
-/

namespace Intake.Query

mutual

inductive Selector.Guarded : Selector → Prop where
  | fields (names : List Text) : Selector.Guarded (.fields names)
  | indices (is : List Int) : Selector.Guarded (.indices is)
  | each : Selector.Guarded .each
  | slice (start stop stride : Option Int) : Selector.Guarded (.slice start stop stride)
  | filter {c : Condition} : Condition.Guarded c → Selector.Guarded (.filter c)

/-- Each operand has a guard, and so have the operands of the filters within it. -/
inductive Condition.Guarded : Condition → Prop where
  | matched {r : Route} : Route.Guarded r → Condition.Guarded (.guarded (.matched r))
  | unmatched {r : Route} : Route.Guarded r → Condition.Guarded (.guarded (.unmatched r))
  | compare {r : Route} (op : Comparator) (l : Literal) : Route.Guarded r →
      Condition.Guarded (.guarded (.compare r op l))
  | both {a b : Condition} : Condition.Guarded a → Condition.Guarded b →
      Condition.Guarded (.both a b)

/-- Each operand of each filter has a guard, at any depth. -/
inductive Route.Guarded : Route → Prop where
  | root : Route.Guarded .root
  | this : Route.Guarded .this
  | select {s : Selector} : Selector.Guarded s → Route.Guarded (.select s)
  | child {left right : Route} : Route.Guarded left → Route.Guarded right →
      Route.Guarded (.child left right)
  | descend {left right : Route} : Route.Guarded left → Route.Guarded right →
      Route.Guarded (.descend left right)
  | common {left right : Route} : Route.Guarded left → Route.Guarded right →
      Route.Guarded (.common left right)

end

mutual

theorem Selector.guarded_guard : (s : Selector) → s.guard.Guarded
  | .fields names => .fields names
  | .indices is => .indices is
  | .each => .each
  | .slice start stop stride => .slice start stop stride
  | .filter c => .filter c.guarded_guard

theorem Condition.guarded_guard : (c : Condition) → c.guard.Guarded
  | .matched r => .matched r.guarded_guard
  | .unmatched r => .unmatched r.guarded_guard
  | .compare r op l => .compare op l r.guarded_guard
  | .both a b => .both a.guarded_guard b.guarded_guard
  | .guarded c => c.guarded_guard

/-- Guarding reaches each operand of each filter, however deep the filter is. -/
theorem Route.guarded_guard : (r : Route) → r.guard.Guarded
  | .root => .root
  | .this => .this
  | .select s => .select s.guarded_guard
  | .child left right => .child left.guarded_guard right.guarded_guard
  | .descend left right => .descend left.guarded_guard right.guarded_guard
  | .common left right => .common left.guarded_guard right.guarded_guard

end

mutual

theorem Selector.Guarded.guard_eq : {s : Selector} → s.Guarded → s.guard = s
  | _, .fields _ => rfl
  | _, .indices _ => rfl
  | _, .each => rfl
  | _, .slice _ _ _ => rfl
  | _, .filter c => by rw [Selector.guard, c.guard_eq]

theorem Condition.Guarded.guard_eq : {c : Condition} → c.Guarded → c.guard = c
  | _, .matched r => by rw [Condition.guard, Condition.guard, r.guard_eq]
  | _, .unmatched r => by rw [Condition.guard, Condition.guard, r.guard_eq]
  | _, .compare op l r => by rw [Condition.guard, Condition.guard, r.guard_eq]
  | _, .both a b => by rw [Condition.guard, a.guard_eq, b.guard_eq]

theorem Route.Guarded.guard_eq : {r : Route} → r.Guarded → r.guard = r
  | _, .root => rfl
  | _, .this => rfl
  | _, .select s => by rw [Route.guard, s.guard_eq]
  | _, .child left right => by rw [Route.guard, left.guard_eq, right.guard_eq]
  | _, .descend left right => by rw [Route.guard, left.guard_eq, right.guard_eq]
  | _, .common left right => by rw [Route.guard, left.guard_eq, right.guard_eq]

end

/-- What has been made ready stays as it is. -/
theorem Route.guard_guard (r : Route) : r.guard.guard = r.guard := r.guarded_guard.guard_eq

/-! ## Following guarded routes -/

/-- What a selector takes from a value once it is guarded. -/
def Selector.select (skip : Skipping) (v : Json) (s : Selector) : Matches := s.guard.run skip v

/-- Whether a condition holds of a value once it is guarded. -/
def Condition.holds (skip : Skipping) (v : Json) (c : Condition) : Except MatchFault Bool :=
  c.guard.run skip v

section

variable (skip : Skipping) (v : Json)

namespace Selector

theorem select_fields (names : List Text) :
    (fields names).select skip v = .ok (Query.fields names v) := rfl

theorem select_indices (is : List Int) : (indices is).select skip v = Query.indices is v := rfl

theorem select_each : each.select skip v = .ok (asItems v) := rfl

theorem select_slice (start stop stride : Option Int) :
    (slice start stop stride).select skip v = Query.slice start stop stride v := rfl

theorem select_filter (c : Condition) :
    (filter c).select skip v = selectM (fun w => c.holds skip w) (candidates v) := rfl

end Selector

namespace Condition

theorem holds_matched (r : Route) : (matched r).holds skip v =
    orSkip (skip (.matched r.guard)) ((r.follow skip v).map fun ws => !ws.isEmpty) := rfl

theorem holds_unmatched (r : Route) : (unmatched r).holds skip v =
    orSkip (skip (.unmatched r.guard)) ((r.follow skip v).map List.isEmpty) := rfl

theorem holds_compare (r : Route) (op : Comparator) (l : Literal) :
    (compare r op l).holds skip v =
      orSkip (skip (.compare r.guard op l)) ((r.follow skip v).bind (anyHolds op l)) := rfl

theorem holds_both (a b : Condition) : (both a b).holds skip v =
    (do if ← a.holds skip v then b.holds skip v else return false) := rfl

/-- A guard does not count twice. -/
theorem holds_guarded (c : Condition) : (guarded c).holds skip v = c.holds skip v := rfl

end Condition

namespace Route

theorem follow_root : root.follow skip v = .ok [v] := rfl

theorem follow_this : this.follow skip v = .ok [v] := rfl

theorem follow_select (s : Selector) : (select s).follow skip v = s.select skip v := rfl

theorem follow_child (left right : Route) : (child left right).follow skip v =
    (left.follow skip v >>= flatMapM fun w => right.follow skip w) := rfl

theorem follow_descend (left right : Route) : (descend left right).follow skip v =
    (left.follow skip v >>= flatMapM (Query.descend fun w => right.follow skip w)) := rfl

theorem follow_common (left right : Route) :
    (common left right).follow skip v = .error .common := rfl

end Route

end

end Intake.Query
