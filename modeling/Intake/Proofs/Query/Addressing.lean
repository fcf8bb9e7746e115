import Intake.Proofs.Query.Spelling
import Intake.Proofs.Query.Walking

set_option autoImplicit false

/-!
# Queries that are written for addresses

The query for an address is the mark of the root and what is written of each segment behind a point.
`Continues` says what comes of reading the rest of a query behind a route; it is followed field by
field and index by index, and an address of plain keys is read as the route along its steps
(`Continues.of_spelled`).
-/

namespace Intake

namespace Segment

/-- What is written of a segment behind its key. -/
def bracket (s : Segment) : Text := s.index.elim [] fun i => "[" ++ Numeral.digits i ++ "]"

theorem written_eq (s : Segment) : s.written = s.key ++ s.bracket := by
  unfold written bracket
  cases s.index with
  | none => exact (List.append_nil _).symm
  | some i => exact (List.append_assoc _ _ _).trans (List.append_assoc _ _ _)

/-- Segments as they are written behind the mark of the root. -/
def trail (segments : List Segment) : Text := segments.flatMap fun s => '.' :: s.written

theorem trail_cons (s : Segment) (more : List Segment) :
    trail (s :: more) = .char '.' :: (s.key ++ (s.bracket ++ trail more)) := by
  rw [trail, List.flatMap_cons, List.cons_append, written_eq, List.append_assoc]
  rfl

/-- What a reader of addresses makes of a segment: a key, and perhaps an index that has few enough
digits. -/
structure IsParsed (s : Segment) : Prop where
  key : Query.Token.IsKey s.key
  index : ∀ i ∈ s.index, (Numeral.digits i).length ≤ Numeral.digitLimit

/-- All segments are written with plain keys, and no integer goes on as a fraction. -/
def Spelled : List Segment → Prop
  | [] => True
  | s :: more => Query.Token.IsPlain s.key ∧
      (Query.Token.IsInteger s.key →
        Query.Token.opensFraction (s.bracket ++ trail more) = false) ∧
      Spelled more

end Segment

theorem Path.query_eq (p : Path) : p.query = .char '$' :: Segment.trail p.segments := by
  unfold query isRoot
  cases shape : p.segments with
  | nil => rfl
  | cons s more =>
    have written : p.text = s.written ++ Segment.trail more := by
      rw [text, shape, List.map_cons, intercalate_cons_eq_flatMap, List.flatMap_map]
      rfl
    rw [written]
    rfl

namespace Query

open Token

/-! ## Reading on -/

theorem Route.Open.route_dot {o : Route.Open} (h : o.descents = none) (r : Route) :
    (o.add .dot r).route = .child o.route r := by
  obtain ⟨descents, steps, last⟩ := o
  cases h
  rfl

theorem routeFrom_field {t : Token} {s : Text} (field : t.field? = some s) (fuel : Nat)
    (o : Route.Open) (ts : List Token) :
    routeFrom (fuel + 1) o (.dot :: t :: ts) =
      routeFrom fuel (o.add .dot (.select (.fields [s]))) ts := by
  rw [routeFrom_succ, nextPart, afterDot_of_field? field]
  rfl

theorem routeFrom_index (fuel : Nat) (o : Route.Open) (i : Int) (ts : List Token) :
    routeFrom (fuel + 1) o (.openBracket :: .int i :: .closeBracket :: ts) =
      routeFrom fuel (o.bracket (.indices [i])) ts := by
  rw [routeFrom_succ]
  rfl

/-- This comes of reading the rest of a query behind a route that nothing binds more loosely. -/
def Continues (r : Route) (cs : Text) (x : Parsed Route) : Prop :=
  ∃ fuel o ts, ts.length < fuel ∧ Scans cs ts ∧ o.descents = none ∧ o.route = r ∧
    routeFrom fuel o ts = x

theorem next_point {cs : Text} (h : ∀ c ∈ cs.head?, c ≠ '.') :
    next ('.' :: cs) = (.dot, cs) := by
  rw [next, order?_eq_none (by decide) (by decide) (by decide) (by decide), Option.getD_none,
    ofText]
  rintro more rfl
  exact h _ rfl rfl

theorem Scans.point {cs : Text} {ts : List Token} (h : Scans ('.' :: cs) ts)
    (single : ∀ c ∈ cs.head?, c ≠ '.') : ∃ more, ts = .dot :: more ∧ Scans cs more := by
  obtain ⟨more, rfl, later⟩ := h.cons (by decide) (next_point single)
  exact ⟨more, rfl, later rfl (Nat.le_refl _)⟩

theorem isBlank_of_isKeyChar {c : CodePoint} (h : Segment.isKeyChar c = true) :
    Text.isBlank c = false ∧ c ≠ '.' ∧ c ≠ '[' := by
  have parts : (c ≠ '.' ∧ c ≠ '[' ∧ c ≠ ']') ∧ Text.isBlank c = false := by
    simpa [Segment.isKeyChar, and_assoc] using h
  exact ⟨parts.2, parts.1.1, parts.1.2.1⟩

/-- What stands in a key starts no further part of a route. -/
theorem joins_next_of_isKeyChar {c : CodePoint} (h : Segment.isKeyChar c = true) (cs : Text) :
    (next (c :: cs)).1.joins = false := by
  refine joins_next fun d first => ?_
  cases first
  exact (isBlank_of_isKeyChar h).2

theorem next_openBracket (cs : Text) : next ('[' :: cs) = (.openBracket, cs) := by
  rw [next, order?_eq_none (by decide) (by decide) (by decide) (by decide)]
  rfl

theorem next_closeBracket (cs : Text) : next (']' :: cs) = (.closeBracket, cs) := by
  rw [next, order?_eq_none (by decide) (by decide) (by decide) (by decide)]
  rfl

/-- An index in brackets makes three tokens. -/
theorem Scans.index {n : Nat} {tail : Text} {ts : List Token}
    (few : (Numeral.digits n).length ≤ Numeral.digitLimit)
    (h : Scans ('[' :: (Numeral.digits n ++ .char ']' :: tail)) ts) :
    ∃ more, ts = .openBracket :: .int n :: .closeBracket :: more ∧ Scans tail more := by
  obtain ⟨ts, rfl, later⟩ := h.cons (by decide) (next_openBracket _)
  have inner := later rfl (Nat.le_refl _)
  have number : next (Numeral.digits n ++ .char ']' :: tail) = (.int n, .char ']' :: tail) := by
    refine next_digits (fun c first => ?_) rfl few
    cases first
    decide
  obtain ⟨c, digits, eq, digit⟩ := Numeral.exists_digits_eq_digit_cons n
  rw [eq, List.cons_append] at inner number
  have solid := isBlank_of_isAlphanum (isAlphanum_of_isDigit digit)
  obtain ⟨ts, rfl, closing⟩ := inner.cons solid number
  obtain ⟨ts, rfl, behind⟩ := (closing rfl (by simp)).cons (by decide) (next_closeBracket tail)
  exact ⟨ts, rfl, behind rfl (Nat.le_refl _)⟩

section Continues

variable {r : Route} {x : Parsed Route}

/-- Where nothing is left to read, the route is all. -/
theorem Continues.nil (h : Continues r [] x) : x = .ok (r, []) := by
  obtain ⟨fuel, o, ts, enough, scans, flat, rfl, rfl⟩ := h
  cases scans.eq_nil
  cases fuel with
  | zero => cases enough
  | succ fuel =>
    rw [routeFrom_succ]
    rfl

/-- Behind a point the first token of a key comes. -/
theorem Continues.point {k tail : Text} (h : Continues r ('.' :: (k ++ tail)) x) (key : IsKey k) :
    ∃ fuel o ts, ts.length < fuel ∧ o.descents = none ∧ o.route = r ∧
      routeFrom (fuel + 1) o (.dot :: (next (k ++ tail)).1 :: ts) = x ∧
      (Lexeme.endsScan (next (k ++ tail)).1 = false →
        (next (k ++ tail)).2.length < (k ++ tail).length → Scans (next (k ++ tail)).2 ts) := by
  obtain ⟨fuel, o, ts, enough, scans, flat, rfl, read⟩ := h
  obtain ⟨c, cs, rfl⟩ := List.exists_cons_of_ne_nil key.ne_nil
  obtain ⟨solid, point, _⟩ := isBlank_of_isKeyChar (key.allowed c List.mem_cons_self)
  obtain ⟨ts, rfl, behind⟩ := scans.point fun d first => by
    cases first
    exact point
  obtain ⟨ts, rfl, later⟩ := Scans.cons behind solid rfl
  cases fuel with
  | zero => cases enough
  | succ fuel =>
    simp only [List.length_cons] at enough
    exact ⟨fuel, o, ts, by omega, flat, rfl, read,
      fun goesOn shorter => later goesOn (Nat.le_of_lt_succ shorter)⟩

/-- A field behind a point is taken, and reading goes on behind it. -/
theorem Continues.field {k tail rest s : Text} (h : Continues r ('.' :: (k ++ tail)) x)
    (key : IsKey k) (reads : Reads (k ++ tail) s rest)
    (shorter : rest.length < (k ++ tail).length) :
    Continues (.child r (.select (.fields [s]))) rest x := by
  obtain ⟨t, next, field⟩ := reads
  obtain ⟨fuel, o, ts, enough, flat, rfl, read, later⟩ := h.point key
  rw [next] at read later
  rw [routeFrom_field field] at read
  exact ⟨fuel, o.add .dot (.select (.fields [s])), ts, enough,
    later (endsScan_of_field? field) shorter, flat, Route.Open.route_dot flat _, read⟩

theorem Token.IsKey.length_lt {k : Text} (key : IsKey k) (tail : Text) :
    tail.length < (k ++ tail).length := by
  have := List.length_pos_iff.2 key.ne_nil
  rw [List.length_append]
  omega

/-- An index behind a key is taken as a step of the route. -/
theorem Continues.bracket {s : Segment} (parsed : s.IsParsed) {tail : Text}
    (h : Continues r (s.bracket ++ tail) x) : Continues (r.along s.indexSteps) tail x := by
  obtain ⟨key, index⟩ := s
  cases index with
  | none => exact h
  | some n =>
    obtain ⟨fuel, o, ts, enough, scans, flat, rfl, rfl⟩ := h
    have written : Segment.bracket ⟨key, some n⟩ ++ tail =
        .char '[' :: (Numeral.digits n ++ .char ']' :: tail) := by
      rw [Segment.bracket, Option.elim_some, List.append_assoc, List.append_assoc]
      rfl
    rw [written] at scans
    obtain ⟨ts, rfl, behind⟩ := scans.index (parsed.index n rfl)
    cases fuel with
    | zero => cases enough
    | succ fuel =>
      simp only [List.length_cons] at enough
      exact ⟨fuel, _, ts, by omega, behind, rfl, rfl, (routeFrom_index fuel o n ts).symm⟩

theorem endsKey_bracket (s : Segment) (more : List Segment) :
    EndsKey (s.bracket ++ Segment.trail more) := by
  obtain ⟨key, index⟩ := s
  intro c first
  cases index with
  | some i =>
    cases first
    exact .inr rfl
  | none =>
    cases more with
    | nil => cases first
    | cons t more =>
      rw [Segment.trail_cons] at first
      cases first
      exact .inl rfl

theorem along_segments (r : Route) (s : Segment) (more : List Segment) :
    r.along ((s :: more).flatMap Segment.steps) =
      ((Route.child r (.select (.fields [s.key]))).along s.indexSteps).along
        (more.flatMap Segment.steps) := by
  rw [List.flatMap_cons, Route.along, List.foldl_append]
  rfl

/-- Segments with plain keys are read as the steps that they stand for. -/
theorem Continues.of_spelled {segments : List Segment} (parsed : ∀ s ∈ segments, s.IsParsed)
    (spelled : Segment.Spelled segments) (h : Continues r (Segment.trail segments) x) :
    x = .ok (r.along (segments.flatMap Segment.steps), []) := by
  induction segments generalizing r with
  | nil => exact h.nil
  | cons s more ih =>
    obtain ⟨here, later⟩ := List.forall_mem_cons.1 parsed
    obtain ⟨plain, whole, others⟩ := spelled
    have reads := reads_of_isPlain (endsKey_bracket s more) plain whole
    rw [Segment.trail_cons] at h
    have next := (h.field here.key reads (here.key.length_lt _)).bracket here
    rw [ih later others next, along_segments]

end Continues

theorem ofTokens_eq_ok_iff {ts : List Token} {r : Route} :
    ofTokens ts = .ok r ↔ route (6 * ts.length + 6) ts = .ok (r, []) := by
  unfold ofTokens
  split
  · next e refused => simp [refused]
  · next found => simp [found]
  · next left some found =>
    obtain ⟨e, bad⟩ := unexpected_eq_error (α := Route) left
    rw [bad, found]
    refine iff_of_false nofun fun same => ?_
    cases same
    exact some rfl

theorem parse_eq_ok_iff {s : Text} {r : Route} :
    parse s = .ok r ↔ ofTokens ((Lexeme.scan s).map Lexeme.token) = .ok r := by
  unfold parse
  dsimp only
  split
  · next read => simp [read]
  · next refused => simp [refused]
  · next refused => simp [refused]

theorem next_root (cs : Text) : next ('$' :: cs) = (.root, cs) := by
  rw [next, order?_eq_none (by decide) (by decide) (by decide) (by decide)]
  rfl

/-- A query behind the mark of the root is read as what comes of going on from the root. -/
theorem exists_continues (cs : Text) :
    ∃ x, Continues .root cs x ∧ ∀ r, parse ('$' :: cs) = .ok r ↔ x = .ok (r, []) := by
  have scans := scans_scan ('$' :: cs)
  obtain ⟨ts, eq, later⟩ := scans.cons (by decide) (next_root cs)
  refine ⟨_, ⟨6 * (ts.length + 1) + 5, .ofRoute .root, ts, by omega, later rfl (Nat.le_refl _), rfl,
    rfl, rfl⟩, fun r => ?_⟩
  rw [parse_eq_ok_iff, eq, ofTokens_eq_ok_iff]
  rfl

end Query
end Intake
