import Intake.Proofs.Query.Straying

set_option autoImplicit false

/-!
# Routes that stop at what two routes have in common

Where a route goes on with a sign for both, it never finds anything, and it breaks off wherever it
found something before (`Jams`). Whatever is read behind the sign keeps it so (`jams_of_routeFrom`).
-/

namespace Intake.Query

/-- A search finds nothing, and where another one finds something it stops at what two routes have
in common. -/
structure Jams (x y : Matches) : Prop where
  barren : Barren y
  stops : ∀ vs, x = .ok vs → y = .error .common ∨ (vs = [] ∧ y = .ok [])
  persists : x = .error .common → y = .error .common

section Jams

variable {x y z : Matches}

theorem jams_common (x : Matches) : Jams x (.error .common) :=
  ⟨nofun, fun _ _ => .inl rfl, fun _ => rfl⟩

theorem jams_error (e : MatchFault) : Jams (.error e) (.error e) :=
  ⟨nofun, nofun, id⟩

theorem jams_nil : Jams (.ok []) (.ok []) := by
  refine ⟨fun vs found => ?_, fun vs found => .inr ⟨?_, rfl⟩, nofun⟩
  · exact (Except.ok.inj found).symm
  · exact (Except.ok.inj found).symm

theorem Jams.trans (h : Jams x y) (k : Jams y z) : Jams x z := by
  refine ⟨k.barren, fun vs found => ?_, fun common => k.persists (h.persists common)⟩
  rcases h.stops vs found with common | ⟨none, nothing⟩
  · exact .inl (k.persists common)
  · exact (k.stops [] nothing).imp id fun still => ⟨none, still.2⟩

/-- Nothing is searched from where nothing is found. -/
theorem Jams.bind (h : Jams x y) (f : Json → Matches) : Jams x (y >>= flatMapM f) := by
  refine ⟨h.barren.bind f, fun vs found => ?_, fun common => ?_⟩
  · rcases h.stops vs found with stopped | ⟨none, nothing⟩
    · rw [stopped]
      exact .inl rfl
    · rw [nothing]
      exact .inr ⟨none, rfl⟩
  · rw [h.persists common]
    rfl

theorem Jams.map_flatMap (h : Jams x y) (f : Json → List Json) :
    Jams x (y.map fun vs => vs.flatMap f) := by
  refine ⟨fun vs found => ?_, fun vs found => ?_, fun common => ?_⟩
  · obtain ⟨ws, earlier, rfl⟩ := exists_of_map_ok found
    rw [h.barren ws earlier]
    rfl
  · rcases h.stops vs found with stopped | ⟨none, nothing⟩
    · rw [stopped]
      exact .inl rfl
    · rw [nothing]
      exact .inr ⟨none, rfl⟩
  · rw [h.persists common]
    rfl

theorem Jams.both {x' y' : Matches} (h : Jams x y) (k : Jams x' y') :
    Jams (both x x') (both y y') := by
  refine ⟨fun vs found => ?_, fun vs found => ?_, fun common => ?_⟩
  · cases y with
    | error e => cases found
    | ok ws =>
      cases y' with
      | error e => cases found
      | ok others =>
        cases h.barren ws rfl
        cases k.barren others rfl
        cases found
        rfl
  · cases x with
    | error e => cases found
    | ok ws =>
      cases x' with
      | error e => cases found
      | ok others =>
        cases found
        rcases h.stops ws rfl with stopped | ⟨rfl, nothing⟩
        · rw [stopped]
          exact .inl rfl
        · rw [nothing]
          rcases k.stops others rfl with stopped | ⟨rfl, nothing⟩
          · rw [stopped]
            exact .inl rfl
          · rw [nothing]
            exact .inr ⟨rfl, rfl⟩
  · cases x with
    | error e =>
      cases common
      rw [h.persists rfl]
      rfl
    | ok ws =>
      cases x' with
      | ok others => cases common
      | error e =>
        cases common
        rw [k.persists rfl]
        rcases h.stops ws rfl with stopped | ⟨_, nothing⟩
        · rw [stopped]
          rfl
        · rw [nothing]
          rfl

theorem jams_flatMapM {f g : Json → Matches} {us : List Json} (h : ∀ u ∈ us, Jams (f u) (g u)) :
    Jams (flatMapM f us) (flatMapM g us) := by
  induction us with
  | nil => exact jams_nil
  | cons u us ih =>
    obtain ⟨here, later⟩ := List.forall_mem_cons.1 h
    exact here.both (ih later)

end Jams

namespace Route.Open

/-- The values from which what stands behind the last descent is followed. -/
def sources (o : Open) (d : Json) : Matches :=
  match o.descents with
  | none => .ok [d]
  | some left => (left.follow skipQuietly d).map fun vs => vs.flatMap nodes

theorem follow_route (o : Open) (d : Json) : o.route.follow skipQuietly d =
    o.sources d >>= flatMapM fun u => o.stepped.follow skipQuietly u := by
  unfold sources
  cases shape : o.descents with
  | none =>
    rw [route, shape]
    exact (flatMapM_singleton (fun u => o.stepped.follow skipQuietly u) d).symm
  | some left =>
    have preorder : (Query.descend fun w => o.stepped.follow skipQuietly w) =
        fun w => flatMapM (fun u => o.stepped.follow skipQuietly u) (nodes w) :=
      funext (descend_eq _)
    rw [route, shape, Option.elim_some, follow_descend, preorder]
    dsimp only
    cases left.follow skipQuietly d with
    | error e => rfl
    | ok ws => exact flatMapM_flatMapM _ nodes ws

/-- The sign for both stops what it is put behind. -/
theorem jams_stepped_both (o : Open) (r : Route) (u : Json) :
    Jams (o.stepped.follow skipQuietly u) ((o.add .both r).stepped.follow skipQuietly u) := by
  obtain ⟨descents, steps, last⟩ := o
  cases steps with
  | none =>
    show Jams _ ((Route.common last r).follow skipQuietly u)
    rw [follow_common]
    exact jams_common _
  | some before =>
    show Jams ((Route.child before last).follow skipQuietly u)
      ((Route.child before (.common last r)).follow skipQuietly u)
    rw [follow_child, follow_child]
    have stops : (fun w => (Route.common last r).follow skipQuietly w) =
        fun _ => .error .common := by
      funext w
      exact follow_common _ w last r
    rw [stops]
    cases before.follow skipQuietly u with
    | error e => exact jams_error e
    | ok ws =>
      cases ws with
      | nil => exact jams_nil
      | cons w ws => exact jams_common _

/-- What an open route leads to stops at what two routes have in common wherever something was found
before: on the way to the last descent, or behind it. -/
inductive Jammed (x : Matches) (d : Json) (o : Open) : Prop where
  | early : Jams x (o.sources d) → Jammed x d o
  | late {us : List Json} {y : Json → Matches} : o.sources d = .ok us → x = flatMapM y us →
      (∀ u ∈ us, Jams (y u) (o.stepped.follow skipQuietly u)) → Jammed x d o

section Jammed

variable {x : Matches} {d : Json} {o : Open}

theorem Jammed.route (h : Jammed x d o) : Jams x (o.route.follow skipQuietly d) := by
  rw [follow_route]
  cases h with
  | early jams => exact jams.bind _
  | late found eq jams =>
    rw [found, eq]
    exact jams_flatMapM jams

theorem Jammed.add (h : Jammed x d o) (joint : Joint) (r : Route) : Jammed x d (o.add joint r) := by
  cases joint with
  | dot =>
    cases h with
    | early jams => exact .early jams
    | late found eq jams =>
      refine .late found eq fun u mem => ?_
      show Jams _ ((Route.child o.stepped r).follow skipQuietly u)
      rw [follow_child]
      exact (jams u mem).bind _
  | descent =>
    exact .early (h.route.map_flatMap nodes)
  | both =>
    cases h with
    | early jams => exact .early jams
    | late found eq jams =>
      exact .late found eq fun u mem => (jams u mem).trans (jams_stepped_both o r u)

theorem Jammed.bracket (h : Jammed x d o) (s : Selector) : Jammed x d (o.bracket s) := by
  refine .late rfl (flatMapM_singleton (fun _ => x) d).symm fun u mem => ?_
  rw [List.mem_singleton.1 mem]
  show Jams x ((Route.child o.route (.select s)).follow skipQuietly d)
  rw [follow_child]
  exact h.route.bind _

theorem jammed_both (o : Open) (r : Route) (d : Json) :
    Jammed (o.route.follow skipQuietly d) d (o.add .both r) := by
  rw [follow_route]
  cases found : o.sources d with
  | error e =>
    have broken : (o.add .both r).sources d = .error e := found
    apply Jammed.early
    rw [broken]
    exact jams_error e
  | ok us => exact .late found rfl fun u _ => jams_stepped_both o r u

end Jammed

end Route.Open

/-- Whatever follows a route that stops at what two routes have in common, it stops there. -/
theorem jams_of_routeFrom {x : Matches} {d : Json} {fuel : Nat} {o : Route.Open}
    {ts rest : List Token} {r : Route} (jammed : o.Jammed x d)
    (h : routeFrom fuel o ts = .ok (r, rest)) : Jams x (r.follow skipQuietly d) := by
  induction fuel generalizing o ts with
  | zero =>
    obtain ⟨e, refused⟩ := unexpected_eq_error (α := Route) ts
    rw [routeFrom, refused] at h
    cases h
  | succ fuel ih =>
    rw [routeFrom_succ] at h
    split at h
    · cases h
      exact jammed.route
    · cases h
    · next more rest part =>
      rcases nextPart_eq_ok part with ⟨joint, r, rfl⟩ | ⟨s, rfl⟩
      · exact ih (jammed.add joint r) h
      · exact ih (jammed.bracket s) h

end Intake.Query
