import Intake.Proofs.Query.Extending
import Intake.Proofs.Query.Jamming

set_option autoImplicit false

/-!
# Conditions in two parts

A condition that is written as two conditions with the sign for both between them means that both
hold (`conjoins_of_condition`): where it has an answer, it holds of a value exactly if both parts
hold of it. A part that ends in a route which is not compared is read on across the sign; then the
whole has no answer where the first part holds.
-/

namespace Intake.Query

namespace Condition

theorem holds_both_eq_true_iff {a b : Condition} {v : Json} :
    (Condition.both a b).holds skipQuietly v = .ok true ↔
      a.holds skipQuietly v = .ok true ∧ b.holds skipQuietly v = .ok true := by
  rw [Condition.holds_both]
  cases a.holds skipQuietly v with
  | error e => simp [bind, Except.bind]
  | ok holds => cases holds <;> simp [bind, Except.bind, pure, Except.pure]

/-- Where a condition has an answer, it holds exactly if two others hold. -/
def Conjoins (c a b : Condition) : Prop :=
  ∀ v holds, c.holds skipQuietly v = .ok holds →
    (holds = true ↔ a.holds skipQuietly v = .ok true ∧ b.holds skipQuietly v = .ok true)

theorem conjoins_both (a b : Condition) : Conjoins (.both a b) a b := by
  intro v holds answer
  rw [← holds_both_eq_true_iff, answer]
  exact ⟨congrArg Except.ok, Except.ok.inj⟩

theorem Conjoins.both {c b d : Condition} (h : Conjoins c b d) (a : Condition) :
    Conjoins (.both a c) (.both a b) d := by
  intro v holds answer
  rw [holds_both_eq_true_iff, and_assoc]
  constructor
  · rintro rfl
    obtain ⟨first, second⟩ := holds_both_eq_true_iff.1 answer
    exact ⟨first, (h v true second).1 rfl⟩
  · rintro ⟨first, parts⟩
    rw [Condition.holds_both, first] at answer
    exact (h v holds answer).2 parts

/-! ## Routes that are read on across the sign for both -/

/-- An operand that holds of a value if something is found there, and perhaps compares. -/
def Finds (c : Condition) (r : Route) : Prop :=
  c = .matched r ∨ ∃ op l, c = .compare r op l

theorem orSkip_eq_ok_true_iff {x : Except MatchFault Bool} :
    orSkip (.ok false) x = .ok true ↔ x = .ok true := by
  unfold orSkip
  split
  · exact iff_of_false nofun nofun
  · exact Iff.rfl

theorem exists_of_holds_matched {r : Route} {v : Json}
    (h : (Condition.matched r).holds skipQuietly v = .ok true) :
    ∃ ws, r.follow skipQuietly v = .ok ws ∧ ws ≠ [] := by
  rw [Condition.holds_matched] at h
  obtain ⟨ws, found, some⟩ := exists_of_map_ok (orSkip_eq_ok_true_iff.1 h)
  refine ⟨ws, found, ?_⟩
  rintro rfl
  cases some

/-- What stops where another route finds something never holds, and has no answer there. -/
theorem Finds.of_jams {c : Condition} {r s : Route} {v : Json} (h : c.Finds s)
    (jams : Jams (r.follow skipQuietly v) (s.follow skipQuietly v)) :
    c.holds skipQuietly v ≠ .ok true ∧
      ((Condition.matched r).holds skipQuietly v = .ok true →
        c.holds skipQuietly v = .error .common) := by
  have route : c.route? = some s := by
    rcases h with rfl | ⟨op, l, rfl⟩ <;> rfl
  constructor
  · intro holds
    cases found : s.follow skipQuietly v with
    | error e =>
      rcases h with rfl | ⟨op, l, rfl⟩
      · rw [Condition.holds_matched, found] at holds
        cases orSkip_eq_ok_true_iff.1 holds
      · rw [Condition.holds_compare, found] at holds
        cases orSkip_eq_ok_true_iff.1 holds
    | ok ws =>
      cases jams.barren ws found
      rcases h with rfl | ⟨op, l, rfl⟩
      · rw [Condition.holds_matched, found] at holds
        cases holds
      · rw [Condition.holds_compare, found] at holds
        cases holds
  · intro holds
    obtain ⟨ws, found, some⟩ := exists_of_holds_matched holds
    have stopped := (jams.stops ws found).resolve_right fun none => some none.1
    rw [Condition.operand_eq_error_iff route]
    exact ⟨by decide, stopped⟩

theorem finds_of_tested {r : Route} {ts rest : List Token} {c : Condition}
    (read : tested r ts = .ok (c, rest)) : c.Finds r := by
  unfold tested at read
  split at read
  · cases read
    exact .inl rfl
  · next op after _ =>
    obtain ⟨l, _, eq⟩ := exists_of_map_ok read
    cases eq
    exact .inr ⟨op, l.1, rfl⟩

/-- An operand that is read on across the sign for both stops where its route finds something. -/
theorem exists_finds_of_both {k : Nat} {o : Route.Open} {ts rest : List Token} {c : Condition}
    (read : ((routeFrom k o (.both :: ts)).bind fun r => tested r.1 r.2) = .ok (c, rest)) :
    ∃ s, c.Finds s ∧
      ∀ v, Jams (o.route.follow skipQuietly v) (s.follow skipQuietly v) := by
  cases whole : routeFrom k o (.both :: ts) with
  | error e =>
    rw [whole] at read
    cases read
  | ok out =>
    rw [whole] at read
    refine ⟨out.1, finds_of_tested read, fun v => ?_⟩
    cases k with
    | zero => exact (unexpected_ne_ok whole).elim
    | succ k =>
      rw [routeFrom_succ, nextPart] at whole
      cases start : routeStart k ts with
      | error e =>
        rw [start] at whole
        cases whole
      | ok inner =>
        rw [start] at whole
        exact jams_of_routeFrom (Route.Open.jammed_both o inner.1 v) whole

/-- What never holds, and has no answer where the first part holds, conjoins the parts. -/
theorem conjoins_of_stops {c a b : Condition} (never : ∀ v, c.holds skipQuietly v ≠ .ok true)
    (stops : ∀ v, a.holds skipQuietly v = .ok true → ∃ e, c.holds skipQuietly v = .error e) :
    Conjoins c a b := by
  intro v holds answer
  constructor
  · rintro rfl
    exact absurd answer (never v)
  · rintro ⟨first, _⟩
    obtain ⟨e, stopped⟩ := stops v first
    rw [answer] at stopped
    cases stopped

theorem conjoins_of_open {m k : Nat} {o : Route.Open} {ts us : List Token} {b c : Condition}
    (readOn : operand m ts = (routeFrom k o (.both :: us)).bind fun r => tested r.1 r.2)
    (whole : condition (m + 1) ts = .ok (c, [])) : Conjoins c (.matched o.route) b := by
  have stopped : ∀ {d : Condition} {rest : List Token}, operand m ts = .ok (d, rest) →
      ∀ v, d.holds skipQuietly v ≠ .ok true ∧
        ((Condition.matched o.route).holds skipQuietly v = .ok true →
          d.holds skipQuietly v = .error .common) := by
    intro d rest read v
    rw [readOn] at read
    obtain ⟨s, finds, jams⟩ := exists_finds_of_both read
    exact finds.of_jams (jams v)
  rw [condition] at whole
  split at whole
  · cases whole
  · next d rest read =>
    obtain ⟨⟨e, left⟩, _, eq⟩ := exists_of_map_ok whole
    cases eq
    refine conjoins_of_stops (fun v holds => ?_) fun v holds => ⟨.common, ?_⟩
    · exact (stopped read v).1 (holds_both_eq_true_iff.1 holds).1
    · rw [Condition.holds_both, (stopped read v).2 holds]
      rfl
  · next d rest _ read =>
    cases whole
    exact conjoins_of_stops (fun v => (stopped read v).1)
      fun v holds => ⟨.common, (stopped read v).2 holds⟩

/-! ## Reading two parts -/

/-- Some tokens end in a negated path that is not in parentheses. -/
def EndsInNegation (ts : List Token) : Prop :=
  ∃ earlier inner n r, ts = earlier ++ .bang :: inner ∧ route n inner = .ok (r, [])

theorem condition_unique {n m : Nat} {ts : List Token} {a b : Condition}
    (h : condition n ts = .ok (a, [])) (k : condition m ts = .ok (b, [])) : a = b := by
  have fits : Fits [] [] := fun _ t first => nomatch first
  have first := (allExtend n).condition h (Nat.le_max_left n m) fits
  have second := (allExtend m).condition k (Nat.le_max_right n m) fits
  rw [first] at second
  exact (Prod.mk.inj (Except.ok.inj second)).1

/-- What is read of two conditions with the sign for both between them. -/
theorem conjoins_of_condition {n n' m : Nat} {ts us : List Token} {a b c : Condition}
    (first : condition n ts = .ok (a, [])) (second : condition n' us = .ok (b, []))
    (noNegation : ¬ EndsInNegation ts) (whole : condition m (ts ++ .both :: us) = .ok (c, []))
    (le : n ≤ m) : Conjoins c a b := by
  induction n generalizing ts a c m with
  | zero => exact (unexpected_ne_ok first).elim
  | succ n ih =>
    obtain ⟨m, rfl, enough⟩ := exists_eq_succ_of_le le
    rw [condition] at first
    split at first
    · cases first
    · next d more here =>
      -- The first part goes on with further operands.
      obtain ⟨⟨a, left⟩, inner, eq⟩ := exists_of_map_ok first
      cases eq
      have behind : EndsInNegation more → EndsInNegation ts := by
        obtain ⟨used, rfl⟩ := ((allProceed n).operand ts).suffix here
        rintro ⟨earlier, path, k, r, rfl, read⟩
        exact ⟨used ++ .both :: earlier, path, k, r, by simp, read⟩
      rw [condition, (allExtend n).operand here enough (fits_of_ne_nil (List.cons_ne_nil _ _) _)]
        at whole
      obtain ⟨⟨c, left⟩, inner', eq⟩ := exists_of_map_ok whole
      cases eq
      exact (ih inner (fun negation => noNegation (behind negation)) inner' enough).both d
    · next d rest _ here =>
      cases first
      cases operandEnds_of_operand here with
      | closed same =>
        rw [condition, same m (.both :: us) enough] at whole
        obtain ⟨⟨b', left⟩, inner, eq⟩ := exists_of_map_ok whole
        cases eq
        rw [condition_unique inner second]
        exact conjoins_both a b
      | «open» goesOn =>
        obtain ⟨k, readOn⟩ := goesOn m (.both :: us) enough
        exact conjoins_of_open readOn whole
      | negated eq read => exact absurd ⟨[], _, _, _, eq, read⟩ noNegation

end Condition

end Intake.Query
