import Intake.Json.Place
import Intake.Proofs.Query.Breaking

set_option autoImplicit false

/-!
# Queries that walk along a path

A query that takes one field or one element at a time reaches at most one value. It reaches what is
stored along its steps, unless it comes to an index where no array is: a number and `true` break it
off, and a last index finds a character of a text (`Misreads`).
-/

namespace Intake.Query

/-- What a query takes for one step. -/
def stepSelector : Step → Selector
  | .key k => .fields [k]
  | .index i => .indices [i]

/-- A route that goes on step by step. -/
def Route.along (r : Route) (steps : List Step) : Route :=
  steps.foldl (fun r s => .child r (.select (stepSelector s))) r

/-- What one step of a query finds at a value. -/
def reachStep : Step → Json → Except MatchFault (Option Json)
  | .key k, .object ms => .ok (Members.get? k ms)
  | .index i, .array xs => .ok xs[i]?
  | .index i, .atom (.text s) => .ok (characters s)[i]?
  | .index _, v => if isCountless v then .error .incomparable else .ok none
  | .key _, _ => .ok none

theorem itemAt_natCast (xs : List Json) (i : Nat) : itemAt xs i = xs[i]?.toList := by
  have position : ¬ (i : Int) < 0 := by omega
  simp [itemAt, position]

/-- One step of a query finds at most one value, unless all fields are asked for. -/
theorem select_stepSelector {s : Step} (plain : s ≠ .key "*") (v : Json) :
    (stepSelector s).select skipQuietly v = (reachStep s v).map Option.toList := by
  cases s with
  | key k =>
    have named : ("*" : Text) ≠ k := fun same => plain (congrArg Step.key same.symm)
    rw [stepSelector, Selector.select_fields]
    cases v with
    | object ms => simp [fields, named, member, reachStep, Except.map]
    | array xs => rfl
    | atom a => rfl
  | index i =>
    rw [stepSelector, Selector.select_indices]
    cases v with
    | array xs => simp [indices, itemAt_natCast, reachStep, Except.map]
    | object ms => rfl
    | atom a =>
      cases a with
      | null => rfl
      | bool b => cases b <;> rfl
      | int n => by_cases zero : n = 0 <;> simp [indices, reachStep, isCountless, Except.map, zero]
      | double x =>
        cases zero : x.same (.finite false 0) <;>
          simp [indices, reachStep, isCountless, Except.map, zero]
      | text s => simp [indices, itemAt_natCast, reachStep, Except.map]

/-- One step of a query finds what is stored there. -/
theorem reachStep_of_child? {s : Step} {v w : Json} (h : v.child? s = some w) :
    reachStep s v = .ok (some w) := by
  cases s with
  | key k =>
    cases v with
    | object ms => exact congrArg Except.ok h
    | array xs => cases h
    | atom a => cases h
  | index i =>
    cases v with
    | object ms => cases h
    | array xs => exact congrArg Except.ok h
    | atom a => cases h

/-- What a query finds along some steps. -/
def reach : List Step → Json → Except MatchFault (Option Json)
  | [], v => .ok (some v)
  | s :: rest, v => (reachStep s v).bind fun o => o.elim (.ok none) (reach rest)

/-- A route that finds at most one value finds at most one further along some steps. -/
theorem follow_along {steps : List Step} (plain : ∀ s ∈ steps, s ≠ .key "*") {v : Json} {r : Route}
    {x : Except MatchFault (Option Json)} (h : r.follow skipQuietly v = x.map Option.toList) :
    (r.along steps).follow skipQuietly v =
      (x.bind fun o => o.elim (.ok none) (reach steps)).map Option.toList := by
  induction steps generalizing r x with
  | nil =>
    rw [Route.along, List.foldl_nil, h]
    rcases x with e | (_ | w) <;> rfl
  | cons s steps ih =>
    obtain ⟨noStar, later⟩ := List.forall_mem_cons.1 plain
    have next : (Route.child r (.select (stepSelector s))).follow skipQuietly v =
        (x.bind fun o => o.elim (.ok none) (reachStep s)).map Option.toList := by
      rw [Route.follow_child, h]
      rcases x with e | (_ | w)
      · rfl
      · rfl
      · show flatMapM (fun w => (Route.select (stepSelector s)).follow skipQuietly w) [w] = _
        rw [flatMapM_singleton, Route.follow_select, select_stepSelector noStar]
        rfl
    rw [Route.along, List.foldl_cons]
    refine (ih later next).trans ?_
    rcases x with e | (_ | w) <;> rfl

theorem follow_root_along {steps : List Step} (plain : ∀ s ∈ steps, s ≠ .key "*") (v : Json) :
    (Route.root.along steps).follow skipQuietly v = (reach steps v).map Option.toList := by
  refine (follow_along plain (x := .ok (some v)) ?_).trans rfl
  rw [Route.follow_root]
  rfl

/-! ## Indices where no array is -/

/-- A query comes to an index at a value that cannot be asked for its elements, or comes to its last
step at a text with so many characters. -/
def Misreads (steps : List Step) (v : Json) : Prop :=
  ∃ pre i rest w, steps = pre ++ .index i :: rest ∧ v.get? pre = some w ∧
    (isCountless w = true ∨ ∃ s, w = .atom (.text s) ∧ i < s.length ∧ rest = [])

/-- No index comes after an index. -/
def Alternates : List Step → Prop
  | .index _ :: .index _ :: _ => False
  | _ :: rest => Alternates rest
  | [] => True

theorem Alternates.tail {s : Step} {rest : List Step} (h : Alternates (s :: rest)) :
    Alternates rest := by
  unfold Alternates at h
  split at h
  · cases h
  · next eq =>
    cases eq
    exact h
  · next eq => cases eq

theorem misreads_cons {s : Step} {rest : List Step} {v w : Json} (h : v.child? s = some w) :
    Misreads (s :: rest) v ↔ Misreads rest w := by
  constructor
  · rintro ⟨pre, i, more, u, shape, stored, bad⟩
    cases pre with
    | nil =>
      cases shape
      cases stored
      cases v with
      | array xs =>
        rcases bad with bad | ⟨t, same, _⟩
        · cases bad
        · cases same
      | object ms => cases h
      | atom a => cases h
    | cons t pre =>
      cases shape
      have below : w.get? pre = some u := by simpa [Json.get?, h] using stored
      exact ⟨pre, i, more, u, rfl, below, bad⟩
  · rintro ⟨pre, i, more, u, rfl, stored, bad⟩
    have above : v.get? (s :: pre) = some u := by simpa [Json.get?, h] using stored
    exact ⟨s :: pre, i, more, u, rfl, above, bad⟩

/-- Nothing is misread from where the first step finds nothing, but at the first step itself. -/
theorem misreads_of_child?_none {s : Step} {rest : List Step} {v : Json} (h : v.child? s = none) :
    Misreads (s :: rest) v ↔ ∃ i, s = .index i ∧
      (isCountless v = true ∨ ∃ t, v = .atom (.text t) ∧ i < t.length ∧ rest = []) := by
  constructor
  · rintro ⟨pre, i, more, w, shape, stored, bad⟩
    cases pre with
    | nil =>
      cases shape
      cases stored
      exact ⟨i, rfl, bad⟩
    | cons t pre =>
      cases shape
      simp [Json.get?, h] at stored
  · rintro ⟨i, rfl, bad⟩
    exact ⟨[], i, rest, v, rfl, rfl, bad⟩

/-- An index finds a character of a text, and nothing is found below a character. -/
theorem reach_index_text {i : Nat} {rest : List Step} (alternates : Alternates (.index i :: rest))
    (s : Text) :
    (¬ (i < s.length ∧ rest = []) ∧ reach (.index i :: rest) (.atom (.text s)) = .ok none) ∨
      ((i < s.length ∧ rest = []) ∧ ∃ w, reach (.index i :: rest) (.atom (.text s)) =
        .ok (some w)) := by
  have step : reach (.index i :: rest) (.atom (.text s)) =
      (characters s)[i]?.elim (.ok none) (reach rest) := rfl
  by_cases enough : i < s.length
  · have character : (characters s)[i]? = some (.text [s[i]]) := by simp [characters, enough]
    rw [step, character]
    match rest with
    | [] => exact .inr ⟨⟨enough, rfl⟩, _, rfl⟩
    | .key k :: more => exact .inl ⟨nofun, rfl⟩
  · have absent : (characters s)[i]? = none := by simpa [characters] using enough
    rw [step, absent]
    exact .inl ⟨fun h => enough h.1, rfl⟩

theorem reachStep_index_atom {a : Atom} (noText : ∀ s, a ≠ .text s) (i : Nat) :
    reachStep (.index i) (.atom a) =
      if isCountless (.atom a) then .error .incomparable else .ok none := by
  cases a with
  | text s => exact absurd rfl (noText s)
  | null => rfl
  | bool b => rfl
  | int n => rfl
  | double x => rfl

/-- What comes of an index at an atom. -/
theorem reach_index_atom {i : Nat} {rest : List Step} (alternates : Alternates (.index i :: rest))
    (a : Atom) :
    (¬ Misreads (.index i :: rest) (.atom a) ∧ reach (.index i :: rest) (.atom a) = .ok none) ∨
      (Misreads (.index i :: rest) (.atom a) ∧
        (reach (.index i :: rest) (.atom a) = .error .incomparable ∨
          ∃ w, reach (.index i :: rest) (.atom a) = .ok (some w))) := by
  rw [misreads_of_child?_none rfl]
  simp only [Step.index.injEq, exists_eq_left']
  by_cases text : ∃ s, a = .text s
  · obtain ⟨s, rfl⟩ := text
    have countable : isCountless (.atom (.text s)) = false := rfl
    rcases reach_index_text alternates s with ⟨fine, found⟩ | ⟨bad, found⟩
    · exact .inl ⟨by simpa [countable] using fine, found⟩
    · exact .inr ⟨.inr ⟨s, rfl, bad⟩, .inr found⟩
  · have noText : ∀ s, a ≠ .text s := fun s same => text ⟨s, same⟩
    rw [reach, reachStep_index_atom noText]
    cases countless : isCountless (.atom a) with
    | true => exact .inr ⟨.inl rfl, .inl rfl⟩
    | false =>
      refine .inl ⟨?_, rfl⟩
      rintro (bad | ⟨s, same, _⟩)
      · cases bad
      · exact noText s (Json.atom.inj same)

theorem reach_of_child?_none {s : Step} {rest : List Step} {v : Json}
    (alternates : Alternates (s :: rest)) (h : v.child? s = none) :
    (¬ Misreads (s :: rest) v ∧ reach (s :: rest) v = .ok none) ∨
      (Misreads (s :: rest) v ∧ (reach (s :: rest) v = .error .incomparable ∨
        ∃ w, reach (s :: rest) v = .ok (some w))) := by
  cases s with
  | key k =>
    refine .inl ⟨?_, ?_⟩
    · rw [misreads_of_child?_none h]
      exact nofun
    · cases v with
      | object ms =>
        have absent : Members.get? k ms = none := h
        simp [reach, reachStep, absent, Except.bind]
      | array xs => rfl
      | atom a => rfl
  | index i =>
    cases v with
    | object ms =>
      refine .inl ⟨?_, rfl⟩
      rw [misreads_of_child?_none h]
      simp [isCountless]
    | array xs =>
      have absent : xs[i]? = none := h
      refine .inl ⟨?_, ?_⟩
      · rw [misreads_of_child?_none h]
        simp [isCountless]
      · simp only [reach, reachStep, absent, Except.bind, Option.elim_none]
    | atom a => exact reach_index_atom alternates a

/-- A query finds what is stored along its steps exactly if it does not misread them. -/
theorem reach_cases {steps : List Step} (alternates : Alternates steps) (v : Json) :
    (¬ Misreads steps v ∧ reach steps v = .ok (v.get? steps)) ∨
      (Misreads steps v ∧ v.get? steps = none ∧
        (reach steps v = .error .incomparable ∨ ∃ w, reach steps v = .ok (some w))) := by
  induction steps generalizing v with
  | nil =>
    refine .inl ⟨?_, rfl⟩
    rintro ⟨pre, i, rest, w, shape, _⟩
    cases pre <;> cases shape
  | cons s rest ih =>
    cases below : v.child? s with
    | none =>
      have absent : v.get? (s :: rest) = none := by simp [Json.get?, below]
      rw [absent]
      rcases reach_of_child?_none alternates below with told | ⟨bad, found⟩
      · exact .inl told
      · exact .inr ⟨bad, rfl, found⟩
    | some w =>
      have stored : v.get? (s :: rest) = w.get? rest := by simp [Json.get?, below]
      have found : reach (s :: rest) v = reach rest w := by
        simp [reach, reachStep_of_child? below, Except.bind]
      rw [misreads_cons below, stored, found]
      exact ih alternates.tail w

end Intake.Query
