import Mathlib.Data.List.Forall2
import Intake.Proofs.Query.Addressing

set_option autoImplicit false

/-!
# Queries that stray from their address

On a document in which nothing is stored but what leads along an address, a query that has found
nothing up to some point finds nothing at all (`Continues.fruitless`). So the query for an address
finds what is stored there only if every key is read as itself or as the star
(`Continues.exists_readAs`), and a query with a star finds what is stored elsewhere, too.
-/

namespace Intake

/-- The value in which nothing is stored but what leads along some steps to a value. -/
def Json.lineTo (v : Json) : List Step → Json
  | [] => v
  | .key k :: rest => .object [(k, lineTo v rest)]
  | .index i :: rest => .array (List.replicate i .null ++ [lineTo v rest])

namespace Json

theorem child?_lineTo (v : Json) (s : Step) (rest : List Step) :
    (lineTo v (s :: rest)).child? s = some (lineTo v rest) := by
  cases s with
  | key k => simp [lineTo, child?, Members.get?_cons]
  | index i => simp [lineTo, child?]

theorem get?_lineTo_append (v : Json) (p q r : List Step) :
    (lineTo v (p ++ q)).get? (p ++ r) = (lineTo v q).get? r := by
  induction p with
  | nil => rfl
  | cons s p ih =>
    rw [List.cons_append, List.cons_append, get?, child?_lineTo]
    exact ih

@[simp] theorem get?_lineTo (v : Json) (p : List Step) : (lineTo v p).get? p = some v := by
  simpa [get?, lineTo] using get?_lineTo_append v p [] []

/-- What null has, and objects of one member and arrays have if their parts do, every line has that
leads to a value that has it. -/
theorem lineTo_of {P : Json → Prop} (null : P (.atom .null))
    (object : ∀ k w, P w → P (.object [(k, w)])) (array : ∀ ws, (∀ w ∈ ws, P w) → P (.array ws))
    {v : Json} (h : P v) (steps : List Step) : P (lineTo v steps) := by
  induction steps with
  | nil => exact h
  | cons s rest ih =>
    cases s with
    | key k => exact object k _ ih
    | index i =>
      refine array _ fun w mem => ?_
      rcases List.mem_append.1 mem with padding | last
      · rw [List.eq_of_mem_replicate padding]
        exact null
      · rw [List.mem_singleton.1 last]
        exact ih

theorem wellKeyed_lineTo {v : Json} (h : v.WellKeyed) (steps : List Step) :
    (lineTo v steps).WellKeyed := by
  refine lineTo_of (.atom .null) (fun k w inner => ?_) (fun _ => .array) h steps
  exact .object (List.nodup_singleton k) (List.forall_mem_singleton.2 inner)

theorem integral_lineTo {v : Json} (h : v.Integral) (steps : List Step) :
    (lineTo v steps).Integral :=
  lineTo_of (.atom rfl) (fun _ _ inner => .object (List.forall_mem_singleton.2 inner))
    (fun _ => .array) h steps

end Json

namespace Query

open Token

/-! ## Steps that meet -/

/-- A query that asks for a step finds another one: it is the same, or all fields are asked for. -/
def Meets (s t : Step) : Prop := s = t ∨ ∃ k, s = .key "*" ∧ t = .key k

theorem select_lineTo {s t : Step} (h : Meets s t) (v : Json) (rest : List Step) :
    (stepSelector s).select skipQuietly (Json.lineTo v (t :: rest)) = .ok [Json.lineTo v rest] := by
  rcases h with rfl | ⟨k, rfl, rfl⟩
  · cases s with
    | key k =>
      rw [stepSelector, Selector.select_fields]
      by_cases star : k = "*" <;> simp [Json.lineTo, fields, member, Members.get?_cons, star]
    | index i =>
      rw [stepSelector, Selector.select_indices]
      simp [Json.lineTo, indices, itemAt_natCast]
  · rw [stepSelector, Selector.select_fields]
    rfl

theorem follow_along_lineTo {steps others : List Step} (h : List.Forall₂ Meets steps others)
    {r : Route} {d v : Json} {rest : List Step}
    (found : r.follow skipQuietly d = .ok [Json.lineTo v (others ++ rest)]) :
    (r.along steps).follow skipQuietly d = .ok [Json.lineTo v rest] := by
  induction h generalizing r with
  | nil => exact found
  | cons meets _ ih =>
    refine ih ?_
    rw [Route.follow_child, found]
    show flatMapM (fun w => (Route.select _).follow skipQuietly w) [_] = _
    rw [flatMapM_singleton, Route.follow_select, List.cons_append, select_lineTo meets]

/-! ## Routes without fruit -/

/-- A search finds nothing; it may break off. -/
def Barren (x : Matches) : Prop := ∀ vs, x = .ok vs → vs = []

theorem Barren.bind {x : Matches} (h : Barren x) (f : Json → Matches) :
    Barren (x >>= flatMapM f) := by
  intro vs found
  cases x with
  | error e => cases found
  | ok ws =>
    rw [h ws rfl] at found
    cases found
    rfl

theorem barren_bind {f : Json → Matches} {e : MatchFault} (refuses : ∀ v, f v = .error e)
    (x : Matches) : Barren (x >>= flatMapM f) := by
  intro vs found
  cases x with
  | error e' => cases found
  | ok ws =>
    cases ws with
    | nil =>
      cases found
      rfl
    | cons w ws =>
      have broken : flatMapM f (w :: ws) = .ok vs := found
      rw [flatMapM, refuses w] at broken
      cases broken

namespace Route

/-- A route finds nothing at a value; it may break off. -/
def Fruitless (r : Route) (d : Json) : Prop := Barren (r.follow skipQuietly d)

variable {d : Json}

theorem Fruitless.child {left : Route} (h : left.Fruitless d) (right : Route) :
    (Route.child left right).Fruitless d := by
  rw [Fruitless, follow_child]
  exact h.bind _

theorem Fruitless.descend {left : Route} (h : left.Fruitless d) (right : Route) :
    (Route.descend left right).Fruitless d := by
  rw [Fruitless, follow_descend]
  exact h.bind _

/-- What two routes have in common is never found. -/
theorem fruitless_common (a b : Route) : (Route.common a b).Fruitless d := by
  rw [Fruitless, follow_common]
  exact nofun

theorem fruitless_child_common (left a b : Route) :
    (Route.child left (.common a b)).Fruitless d := by
  rw [Fruitless, follow_child]
  exact barren_bind (fun v => follow_common _ v a b) _

/-- A field of another name is not found. -/
theorem fruitless_field {r : Route} {k name : Text} {v : Json}
    (found : r.follow skipQuietly d = .ok [.object [(k, v)]]) (other : name ≠ k)
    (noStar : name ≠ "*") : (Route.child r (.select (.fields [name]))).Fruitless d := by
  intro vs fruit
  rw [follow_child, found] at fruit
  have single : flatMapM (fun w => (Route.select (.fields [name])).follow skipQuietly w)
      [.object [(k, v)]] = .ok vs := fruit
  rw [flatMapM_singleton, follow_select, Selector.select_fields] at single
  have absent : fields [name] (.object [(k, v)]) = [] := by
    simp [fields, member, Members.get?_cons, other.symm, noStar.symm]
  rw [absent] at single
  cases single
  rfl

namespace Open

/-- What stands most loosely in a route finds nothing. -/
def Fruitless (o : Open) (d : Json) : Prop :=
  (o.descents.getD o.stepped).Fruitless d

theorem Fruitless.route {o : Open} (h : o.Fruitless d) : o.route.Fruitless d := by
  obtain ⟨descents, steps, last⟩ := o
  cases descents with
  | none => exact h
  | some left => exact Route.Fruitless.descend h _

theorem fruitless_both {o : Open} (flat : o.descents = none) (r : Route) :
    (o.add .both r).Fruitless d := by
  obtain ⟨descents, steps, last⟩ := o
  cases flat
  cases steps with
  | none => exact fruitless_common last r
  | some before => exact fruitless_child_common before last r

/-- Nothing is found by going on from where nothing is found. -/
theorem Fruitless.add {o : Open} (h : o.Fruitless d) (joint : Joint) (r : Route) :
    (o.add joint r).Fruitless d := by
  cases joint with
  | descent => exact h.route
  | dot =>
    obtain ⟨descents, steps, last⟩ := o
    cases descents with
    | none => exact Route.Fruitless.child h r
    | some left => exact h
  | both =>
    obtain ⟨descents, steps, last⟩ := o
    cases descents with
    | some left => exact h
    | none => exact fruitless_both rfl r

theorem Fruitless.bracket {o : Open} (h : o.Fruitless d) (s : Selector) :
    (o.bracket s).Fruitless d :=
  h.route.child _

end Open
end Route

/-! ## Reading on without fruit -/

theorem nextPart_eq_ok {fuel : Nat} {o more : Route.Open} {ts rest : List Token}
    (h : nextPart fuel o ts = some (.ok (more, rest))) :
    (∃ joint r, more = o.add joint r) ∨ ∃ s, more = o.bracket s := by
  unfold nextPart at h
  split at h
  · obtain ⟨a, _, eq⟩ := exists_of_map_ok (Option.some.inj h)
    cases eq
    exact .inl ⟨_, _, rfl⟩
  · obtain ⟨a, _, eq⟩ := exists_of_map_ok (Option.some.inj h)
    cases eq
    exact .inl ⟨_, _, rfl⟩
  · obtain ⟨a, _, eq⟩ := exists_of_map_ok (Option.some.inj h)
    cases eq
    exact .inl ⟨_, _, rfl⟩
  · obtain ⟨a, _, eq⟩ := exists_of_map_ok (Option.some.inj h)
    cases eq
    exact .inr ⟨_, rfl⟩
  · obtain ⟨a, _, eq⟩ := exists_of_map_ok (Option.some.inj h)
    cases eq
    exact .inr ⟨_, rfl⟩
  · cases h

theorem nextPart_of_joins {t : Token} (joins : t.joins = false) (fuel : Nat) (o : Route.Open)
    (ts : List Token) : t = .both ∨ nextPart fuel o (t :: ts) = none := by
  unfold nextPart
  split
  · next eq =>
    cases eq
    cases joins
  · next eq =>
    cases eq
    cases joins
  · next eq =>
    cases eq
    exact .inl rfl
  · next eq =>
    cases eq
    cases joins
  · next eq =>
    cases eq
    cases joins
  · exact .inr rfl

/-- Whatever follows a route that finds nothing, it finds nothing. -/
theorem fruitless_of_routeFrom {d : Json} {fuel : Nat} {o : Route.Open} {ts rest : List Token}
    {r : Route} (barren : o.Fruitless d) (h : routeFrom fuel o ts = .ok (r, rest)) :
    r.Fruitless d := by
  induction fuel generalizing o ts with
  | zero =>
    obtain ⟨e, refused⟩ := unexpected_eq_error (α := Route) ts
    rw [routeFrom, refused] at h
    cases h
  | succ fuel ih =>
    rw [routeFrom_succ] at h
    split at h
    · cases h
      exact barren.route
    · cases h
    · next more rest part =>
      rcases nextPart_eq_ok part with ⟨joint, r, rfl⟩ | ⟨s, rfl⟩
      · exact ih (barren.add joint r) h
      · exact ih (barren.bracket s) h

section Continues

variable {d : Json} {r out : Route}

/-- What starts no further part of a route ends it, or asks for what is in common. -/
theorem Continues.stuck {c : CodePoint} {cs : Text} (h : Continues r (c :: cs) (.ok (out, [])))
    (allowed : Segment.isKeyChar c = true) : out.Fruitless d := by
  obtain ⟨fuel, o, ts, enough, scans, flat, rfl, read⟩ := h
  obtain ⟨t, left, shape⟩ : ∃ t left, next (c :: cs) = (t, left) := ⟨_, _, rfl⟩
  obtain ⟨ts, rfl, _⟩ := scans.cons (isBlank_of_isKeyChar allowed).1 shape
  have joins : (next (c :: cs)).1.joins = false := joins_next_of_isKeyChar allowed cs
  rw [shape] at joins
  cases fuel with
  | zero => cases enough
  | succ fuel =>
    rw [routeFrom_succ] at read
    rcases nextPart_of_joins joins fuel o ts with rfl | none
    · rw [nextPart] at read
      cases start : routeStart fuel ts with
      | error e =>
        rw [start] at read
        cases read
      | ok inner =>
        rw [start] at read
        exact fruitless_of_routeFrom (Route.Open.fruitless_both flat inner.1) read
    · rw [none] at read
      cases read

/-- A key is read as some field, if reading goes on. -/
theorem Continues.exists_reads {k tail : Text} {x : Route × List Token}
    (h : Continues r ('.' :: (k ++ tail)) (.ok x)) (key : IsKey k) :
    ∃ name rest, Reads (k ++ tail) name rest := by
  obtain ⟨fuel, o, ts, _, _, _, read, _⟩ := h.point key
  cases field : (next (k ++ tail)).1.field? with
  | some name => exact ⟨name, _, _, rfl, field⟩
  | none =>
    obtain ⟨c, cs, rfl⟩ := List.exists_cons_of_ne_nil key.ne_nil
    have joins : (next (c :: cs ++ tail)).1.joins = false :=
      joins_next_of_isKeyChar (key.allowed c List.mem_cons_self) (cs ++ tail)
    obtain ⟨e, refused⟩ := afterDot_of_field?_eq_none field joins ts
    rw [routeFrom_succ, nextPart, refused] at read
    cases read

/-- Behind a field that is not there nothing is found. -/
theorem Continues.fruitless {k tail name left : Text} {rest : List Token}
    (h : Continues r ('.' :: (k ++ tail)) (.ok (out, rest))) (key : IsKey k)
    (reads : Reads (k ++ tail) name left)
    (barren : (Route.child r (.select (.fields [name]))).Fruitless d) : out.Fruitless d := by
  obtain ⟨t, next, field⟩ := reads
  obtain ⟨fuel, o, ts, _, flat, rfl, read, _⟩ := h.point key
  rw [next, routeFrom_field field] at read
  refine fruitless_of_routeFrom ?_ read
  obtain ⟨descents, steps, last⟩ := o
  cases flat
  exact barren

/-- A query reads one segment as another: with the same index, and with the same key or the star. -/
def ReadAs (s t : Segment) : Prop := t.index = s.index ∧ (t.key = s.key ∨ t.key = "*")

theorem ReadAs.meets {s t : Segment} (h : ReadAs s t) : List.Forall₂ Meets t.steps s.steps := by
  obtain ⟨index, key⟩ := h
  have same : t.indexSteps = s.indexSteps := by rw [Segment.indexSteps, index, Segment.indexSteps]
  rw [Segment.steps, Segment.steps, same]
  refine .cons ?_ (List.forall₂_same.2 fun _ _ => .inl rfl)
  rcases key with same | star
  · exact .inl (congrArg Step.key same)
  · exact .inr ⟨s.key, congrArg Step.key star, rfl⟩

/-- A query that finds something where nothing else is stored reads every key as itself or as the
star, and the keys are plain if it reads none as the star. -/
theorem Continues.exists_readAs {segments : List Segment} (parsed : ∀ s ∈ segments, s.IsParsed)
    {v : Json} (h : Continues r (Segment.trail segments) (.ok (out, [])))
    (found : r.follow skipQuietly d = .ok [Json.lineTo v (segments.flatMap Segment.steps)])
    (fruit : ¬ out.Fruitless d) :
    ∃ others, List.Forall₂ ReadAs segments others ∧
      out = r.along (others.flatMap Segment.steps) ∧
      ((∀ t ∈ others, t.key ≠ "*") → Segment.Spelled segments) := by
  induction segments generalizing r with
  | nil =>
    cases h.nil
    exact ⟨[], .nil, rfl, fun _ => trivial⟩
  | cons s more ih =>
    obtain ⟨here, later⟩ := List.forall_mem_cons.1 parsed
    rw [Segment.trail_cons] at h
    have ends := endsKey_bracket s more
    -- One key has been read to its end, as itself or as the star.
    have step : ∀ {name : Text}, Reads (s.key ++ (s.bracket ++ Segment.trail more)) name
        (s.bracket ++ Segment.trail more) → (name = s.key ∨ name = "*") →
        (name ≠ "*" → IsPlain s.key ∧
          (IsInteger s.key → opensFraction (s.bracket ++ Segment.trail more) = false)) →
        ∃ others, List.Forall₂ ReadAs (s :: more) others ∧
          out = r.along (others.flatMap Segment.steps) ∧
          ((∀ t ∈ others, t.key ≠ "*") → Segment.Spelled (s :: more)) := by
      intro name reads same plain
      have readAs : ReadAs s ⟨name, s.index⟩ := ⟨rfl, same⟩
      rw [List.flatMap_cons] at found
      obtain ⟨others, readOthers, rfl, spelled⟩ := ih later
        ((h.field here.key reads (here.key.length_lt _)).bracket here)
        (follow_along_lineTo readAs.meets found)
      refine ⟨⟨name, s.index⟩ :: others, .cons readAs readOthers,
        (along_segments r ⟨name, s.index⟩ others).symm, fun noStar => ?_⟩
      obtain ⟨first, rest⟩ := List.forall_mem_cons.1 noStar
      exact ⟨(plain first).1, (plain first).2, spelled rest⟩
    obtain ⟨name, rest, reads⟩ := h.exists_reads here.key
    by_cases star : name = "*"
    · subst star
      obtain ⟨left, suffix, shorter, rfl⟩ := suffix_of_reads_star here.key ends reads
      cases left with
      | nil => exact step reads (.inr rfl) fun noStar => absurd rfl noStar
      | cons c left =>
        have behind := h.field here.key reads (by
          simp only [List.length_append]
          omega)
        exact absurd (behind.stuck (here.key.allowed c (suffix.mem List.mem_cons_self))) fruit
    · by_cases own : name = s.key
      · subst own
        obtain ⟨rfl, plain⟩ := isPlain_of_reads here.key ends star reads
        exact step reads (.inl rfl) fun _ => plain
      · refine absurd (h.fruitless here.key reads ?_) fruit
        exact Route.fruitless_field found own star

end Continues

/-! ## Queries with a star -/

theorem meets_of_readAs {segments others : List Segment}
    (h : List.Forall₂ ReadAs segments others) :
    List.Forall₂ Meets (others.flatMap Segment.steps) (segments.flatMap Segment.steps) := by
  induction h with
  | nil => exact .nil
  | cons readAs _ ih =>
    rw [List.flatMap_cons, List.flatMap_cons]
    exact List.rel_append readAs.meets ih

/-- Where a key is read as the star, another one is found, and nothing is stored at the address. -/
theorem exists_elsewhere {segments others : List Segment}
    (h : List.Forall₂ ReadAs segments others) (star : ∃ t ∈ others, t.key = "*") :
    ∃ (place : Segment) (places : List Segment),
      List.Forall₂ Meets (others.flatMap Segment.steps)
        ((place :: places).flatMap Segment.steps) ∧
      ∀ v, (Json.lineTo v ((place :: places).flatMap Segment.steps)).get?
        (segments.flatMap Segment.steps) = none := by
  induction h with
  | nil =>
    obtain ⟨t, mem, _⟩ := star
    cases mem
  | @cons s t segments others readAs more ih =>
    by_cases here : t.key = "*"
    · -- In place of a key that is read as the star there may be a longer one.
      have elsewhere : ReadAs ⟨'*' :: s.key, s.index⟩ t := ⟨readAs.1, .inr here⟩
      refine ⟨⟨'*' :: s.key, s.index⟩, segments, meets_of_readAs (.cons elsewhere more),
        fun v => ?_⟩
      have longer : CodePoint.char '*' :: s.key ≠ s.key := fun same =>
        absurd (congrArg List.length same) (by simp)
      rw [List.flatMap_cons, List.flatMap_cons, Segment.steps, Segment.steps, List.cons_append,
        List.cons_append, Json.get?, Json.lineTo, Json.child?, Members.get?_cons, if_neg longer]
      rfl
    · obtain ⟨u, mem, later⟩ := star
      have behind : u ∈ others := (List.mem_cons.1 mem).resolve_left fun same =>
        here (same ▸ later)
      obtain ⟨place, places, meets, absent⟩ := ih ⟨u, behind, later⟩
      refine ⟨s, place :: places, ?_, fun v => ?_⟩
      · rw [List.flatMap_cons, List.flatMap_cons]
        exact List.rel_append readAs.meets meets
      · rw [List.flatMap_cons, List.flatMap_cons, Json.get?_lineTo_append]
        exact absent v

end Query
end Intake
