import Intake.Proofs.Query.Straying

set_option autoImplicit false

/-!
# Reading what more follows

What a part of the grammar has read it reads again where more tokens follow and more fuel is there
(`AllExtend`). Where a part has come to the last token, this needs tokens behind it that do not go
on with it. An operand that has come to the last token ends a route that goes on (`OperandEnds`), or
it has come to its own end.
-/

namespace Intake.Query

/-- What `x` has read `y` reads too, and more tokens are left behind it. -/
def LeavesMore {α : Type} (u : List Token) (x y : Parsed α) : Prop :=
  ∀ a rest, x = .ok (a, rest) → y = .ok (a, rest ++ u)

section LeavesMore

variable {α β : Type} {u : List Token} {x y : Parsed α}

theorem leavesMore_ok (a : α) (rest : List Token) :
    LeavesMore u (.ok (a, rest)) (.ok (a, rest ++ u)) := by
  intro b left read
  cases read
  rfl

theorem leavesMore_unexpected (ts : List Token) : LeavesMore u (unexpected ts) y := by
  intro a rest read
  obtain ⟨e, refused⟩ := unexpected_eq_error (α := α) ts
  rw [refused] at read
  cases read

theorem LeavesMore.map (h : LeavesMore u x y) {f : α × List Token → β × List Token}
    (same : ∀ a rest, f (a, rest ++ u) = ((f (a, rest)).1, (f (a, rest)).2 ++ u)) :
    LeavesMore u (x.map f) (y.map f) := by
  intro b left read
  obtain ⟨⟨a, rest⟩, first, eq⟩ := exists_of_map_ok read
  rw [h a rest first]
  show Except.ok (f (a, rest ++ u)) = _
  rw [same, eq]

end LeavesMore

/-- A part of the grammar reads the same where more tokens follow. -/
def Extends {α : Type} (part : List Token → Parsed α) : Prop :=
  ∀ ts u, LeavesMore u (part ts) (part (ts ++ u))

theorem expect_eq_ok_iff {t : Token} {ts : List Token} {out : Unit × List Token} :
    expect t ts = .ok out ↔ ts = t :: out.2 := by
  obtain ⟨e, refused⟩ := unexpected_eq_error (α := Unit) ts
  unfold expect
  split
  · next u rest =>
    by_cases same : u = t
    · rw [if_pos same, same]
      constructor
      · intro h
        cases h
        rfl
      · intro h
        rw [(List.cons.inj h).2]
    · rw [if_neg same, refused]
      exact iff_of_false nofun fun h => same (List.cons.inj h).1
  · rw [refused]
    exact iff_of_false nofun nofun

theorem extends_expect (t : Token) : Extends (expect t) := by
  intro ts u x rest read
  rw [expect_eq_ok_iff] at read ⊢
  rw [read, List.cons_append]

theorem extends_moreNames : Extends moreNames := by
  intro ts u
  fun_induction moreNames ts with
  | case1 rest => exact leavesMore_ok [] rest
  | case2 s rest ih => exact ih.map fun _ _ => rfl
  | case3 => exact leavesMore_unexpected _
  | case4 => exact leavesMore_unexpected _

theorem extends_moreIndices : Extends moreIndices := by
  intro ts u
  fun_induction moreIndices ts with
  | case1 rest => exact leavesMore_ok [] rest
  | case2 n rest ih => exact ih.map fun _ _ => rfl
  | case3 => exact leavesMore_unexpected _
  | case4 => exact leavesMore_unexpected _

theorem optionalInt_append {ts : List Token} (some : (optionalInt ts).2 ≠ []) (u : List Token) :
    optionalInt (ts ++ u) = ((optionalInt ts).1, (optionalInt ts).2 ++ u) := by
  cases ts with
  | nil => exact absurd rfl some
  | cons t ts => cases t <;> rfl

theorem extends_sliceFrom (start : Option Int) : Extends (sliceFrom start) := by
  intro ts u x rest read
  unfold sliceFrom at read ⊢
  dsimp only at read ⊢
  split at read
  · next behind eq =>
    cases read
    rw [optionalInt_append (by rw [eq]; nofun), eq]
    rfl
  · next more eq =>
    obtain ⟨⟨_, left⟩, closed, eq'⟩ := exists_of_map_ok read
    cases eq'
    have end' := expect_eq_ok_iff.1 closed
    rw [optionalInt_append (by rw [eq]; nofun), eq]
    show (expect .closeBracket (optionalInt (more ++ u)).2).map (fun r =>
      (Selector.slice start (optionalInt ts).1 (optionalInt (more ++ u)).1, r.2)) = _
    rw [optionalInt_append (by rw [end']; nofun), extends_expect _ _ u _ _ closed]
    rfl
  · exact leavesMore_unexpected _ x rest read

theorem extends_plainBracket : Extends plainBracket := by
  intro ts u
  fun_cases plainBracket ts with
  | case1 rest => exact (extends_expect .closeBracket rest u).map fun _ _ => rfl
  | case2 s rest => exact (extends_moreNames rest u).map fun _ _ => rfl
  | case3 n rest => exact extends_sliceFrom (some n) rest u
  | case4 n rest noColon =>
    cases rest with
    | nil =>
      intro x rest read
      cases read
    | cons t rest =>
      rw [List.cons_append, List.cons_append, plainBracket]
      · exact (extends_moreIndices (t :: rest) u).map fun _ _ => rfl
      · rintro more same
        exact noColon rest (congrArg (· :: rest) (List.cons.inj same).1)
  | case5 rest => exact extends_sliceFrom none rest u
  | case6 => exact leavesMore_unexpected _

theorem extends_afterDot : Extends afterDot := by
  intro ts u
  fun_cases afterDot ts with
  | case1 s rest => exact leavesMore_ok _ rest
  | case2 rest => exact leavesMore_ok _ rest
  | case3 n rest => exact leavesMore_ok _ rest
  | case4 rest => exact extends_plainBracket rest u
  | case5 => exact leavesMore_unexpected _

theorem extends_literal : Extends literal := by
  intro ts u
  fun_cases literal ts with
  | case1 s rest => exact leavesMore_ok _ rest
  | case2 n rest => exact leavesMore_ok _ rest
  | case3 x rest => exact leavesMore_ok _ rest
  | case4 b rest => exact leavesMore_ok _ rest
  | case5 => exact leavesMore_unexpected _

theorem extends_plainStart : Extends plainStart := by
  intro ts u
  fun_cases plainStart ts with
  | case1 rest => exact leavesMore_ok _ rest
  | case2 rest => exact leavesMore_ok _ rest
  | case3 s rest => exact leavesMore_ok _ rest
  | case4 rest => exact leavesMore_ok _ rest
  | case5 => exact leavesMore_unexpected _

/-! ## Parts with fuel -/

/-- Tokens that do not go on with what has been read, if nothing stands between. -/
def Fits (rest u : List Token) : Prop := rest = [] → ∀ t ∈ u.head?, t = .closeBracket

theorem fits_of_ne_nil {rest : List Token} (some : rest ≠ []) (u : List Token) : Fits rest u :=
  fun none => absurd none some

/-- A token at which a route may end. -/
def endsRoute : Token → Bool
  | .dot | .descent | .both | .openBracket => false
  | _ => true

theorem nextPart_eq_none_iff {fuel : Nat} {o : Route.Open} {ts : List Token} :
    nextPart fuel o ts = none ↔ ∀ t ∈ ts.head?, endsRoute t = true := by
  cases ts with
  | nil => exact iff_of_true rfl nofun
  | cons t ts =>
    have first : (∀ s ∈ (t :: ts).head?, endsRoute s = true) ↔ endsRoute t = true := by simp
    rw [first]
    unfold nextPart
    split
    · next eq =>
      cases eq
      exact iff_of_false nofun nofun
    · next eq =>
      cases eq
      exact iff_of_false nofun nofun
    · next eq =>
      cases eq
      exact iff_of_false nofun nofun
    · next eq =>
      cases eq
      exact iff_of_false nofun nofun
    · next eq =>
      cases eq
      exact iff_of_false nofun nofun
    · next dot descent both _ bracket =>
      refine iff_of_true rfl ?_
      cases t with
      | dot => exact (dot ts rfl).elim
      | descent => exact (descent ts rfl).elim
      | both => exact (both ts rfl).elim
      | openBracket => exact (bracket ts rfl).elim
      | _ => rfl

theorem Fits.nextPart_append {fuel fuel' : Nat} {o : Route.Open} {ts u : List Token}
    (h : Fits ts u) (ends : nextPart fuel o ts = none) : nextPart fuel' o (ts ++ u) = none := by
  rw [nextPart_eq_none_iff] at ends ⊢
  cases ts with
  | nil =>
    intro t first
    rw [h rfl t first]
    rfl
  | cons t ts => exact ends

/-- All parts of the grammar that call one another read the same with more fuel and where more
tokens follow. -/
structure AllExtend (n : Nat) : Prop where
  route : ∀ {ts r rest}, Query.route n ts = .ok (r, rest) → ∀ {m u}, n ≤ m → Fits rest u →
    Query.route m (ts ++ u) = .ok (r, rest ++ u)
  routeStart : ∀ {ts r rest}, Query.routeStart n ts = .ok (r, rest) → ∀ {m} u, n ≤ m →
    Query.routeStart m (ts ++ u) = .ok (r, rest ++ u)
  routeFrom : ∀ {o ts r rest}, Query.routeFrom n o ts = .ok (r, rest) → ∀ {m u}, n ≤ m →
    Fits rest u → Query.routeFrom m o (ts ++ u) = .ok (r, rest ++ u)
  filterFrom : ∀ {ts s rest}, Query.filterFrom n ts = .ok (s, rest) → ∀ {m} u, n ≤ m →
    Query.filterFrom m (ts ++ u) = .ok (s, rest ++ u)
  condition : ∀ {ts c rest}, Query.condition n ts = .ok (c, rest) → ∀ {m u}, n ≤ m →
    Fits rest u → Query.condition m (ts ++ u) = .ok (c, rest ++ u)
  operand : ∀ {ts c rest}, Query.operand n ts = .ok (c, rest) → ∀ {m u}, n ≤ m →
    Fits rest u → Query.operand m (ts ++ u) = .ok (c, rest ++ u)

theorem unexpected_ne_ok {α : Type} {ts : List Token} {out : α × List Token}
    (h : (unexpected ts : Parsed α) = .ok out) : False := by
  obtain ⟨e, refused⟩ := unexpected_eq_error (α := α) ts
  rw [refused] at h
  cases h

theorem allExtend_zero : AllExtend 0 where
  route h := (unexpected_ne_ok h).elim
  routeStart h := (unexpected_ne_ok h).elim
  routeFrom h := (unexpected_ne_ok h).elim
  filterFrom h := (unexpected_ne_ok h).elim
  condition h := (unexpected_ne_ok h).elim
  operand h := (unexpected_ne_ok h).elim

theorem routeStart_eq_plainStart {fuel : Nat} {ts : List Token}
    (noParen : ∀ inner, ts = .openParen :: inner → False) :
    routeStart (fuel + 1) ts = plainStart ts := by
  rw [routeStart]
  exact noParen

theorem tested_of_comparison?_eq_none {r : Route} {ts : List Token} (h : comparison? ts = none) :
    tested r ts = .ok (.matched r, ts) := by
  rw [tested, h]

theorem comparison?_cons_append (t : Token) (ts u : List Token) :
    comparison? (t :: ts ++ u) = (comparison? (t :: ts)).map fun r => (r.1, r.2 ++ u) := by
  cases t <;> rfl

/-- A comparison is read to its end, and a route that is not compared goes on with nothing else. -/
theorem tested_append {r : Route} {ts rest : List Token} {c : Condition}
    (read : tested r ts = .ok (c, rest)) {u : List Token} (fits : Fits rest u) :
    tested r (ts ++ u) = .ok (c, rest ++ u) := by
  cases ts with
  | nil =>
    cases read
    apply tested_of_comparison?_eq_none
    cases u with
    | nil => rfl
    | cons t u =>
      cases fits rfl t rfl
      rfl
  | cons t ts =>
    unfold tested at read ⊢
    rw [comparison?_cons_append]
    split at read
    · next none =>
      cases read
      rw [none]
      rfl
    · next op after compares =>
      rw [compares]
      exact ((extends_literal after u).map fun _ _ => rfl) c rest read

/-- What is read behind a route with the comparison that may follow it. -/
theorem bind_tested_append {x y : Parsed Route} {u rest : List Token} {c : Condition}
    (same : ∀ {r left}, x = .ok (r, left) → Fits left u → y = .ok (r, left ++ u))
    (read : (x.bind fun r => tested r.1 r.2) = .ok (c, rest)) (fits : Fits rest u) :
    (y.bind fun r => tested r.1 r.2) = .ok (c, rest ++ u) := by
  cases x with
  | error e => cases read
  | ok out =>
    obtain ⟨r, left⟩ := out
    have compared : tested r left = .ok (c, rest) := read
    rw [same rfl fun none => ?_]
    · exact tested_append compared fits
    · subst none
      cases compared
      exact fits rfl

/-- What is read of an operand behind its parentheses: a route may go on there. -/
def behindParens (fuel : Nat) (c : Condition) (ts : List Token) : Parsed Condition :=
  match c with
  | .matched r => (routeFrom fuel (.ofRoute r) ts).bind fun r => tested r.1 r.2
  | c => .ok (c, ts)

theorem operand_paren {fuel : Nat} {ts behind : List Token} {c : Condition}
    (inside : condition fuel ts = .ok (c, .closeParen :: behind)) :
    operand (fuel + 1) (.openParen :: ts) = behindParens fuel c behind := by
  rw [operand, inside]
  cases c <;> rfl

theorem exists_of_operand_paren {fuel : Nat} {ts : List Token} {out : Condition × List Token}
    (read : operand (fuel + 1) (.openParen :: ts) = .ok out) :
    ∃ c behind, condition fuel ts = .ok (c, .closeParen :: behind) ∧
      behindParens fuel c behind = .ok out := by
  have whole := read
  rw [operand] at read
  split at read
  · cases read
  · next c after inside =>
    cases closed : expect .closeParen after with
    | error e =>
      rw [closed] at read
      cases read
    | ok left =>
      cases expect_eq_ok_iff.1 closed
      rw [operand_paren inside] at whole
      exact ⟨c, left.2, inside, whole⟩

theorem exists_route_nil_eq_error (fuel : Nat) : ∃ e, route fuel [] = .error e := by
  match fuel with
  | 0 => exact unexpected_eq_error []
  | 1 => exact unexpected_eq_error []
  | fuel + 2 => exact unexpected_eq_error []

theorem operand_of_plain {ts : List Token} (noParen : ∀ inner, ts = .openParen :: inner → False)
    (noBang : ∀ inner, ts = .bang :: inner → False) (fuel : Nat) :
    operand (fuel + 1) ts = (route fuel ts).bind fun r => tested r.1 r.2 := by
  rw [operand]
  · exact noParen
  · exact noBang

theorem operand_append_of_plain {ts : List Token} (some : ts ≠ [])
    (noParen : ∀ inner, ts = .openParen :: inner → False)
    (noBang : ∀ inner, ts = .bang :: inner → False) (fuel : Nat) (u : List Token) :
    operand (fuel + 1) (ts ++ u) = (route fuel (ts ++ u)).bind fun r => tested r.1 r.2 := by
  obtain ⟨t, ts, rfl⟩ := List.exists_cons_of_ne_nil some
  apply operand_of_plain
  · intro inner eq
    exact noParen ts (congrArg (· :: ts) (List.cons.inj eq).1)
  · intro inner eq
    exact noBang ts (congrArg (· :: ts) (List.cons.inj eq).1)

theorem ne_nil_of_operand {fuel : Nat} {ts : List Token} {out : Condition × List Token}
    (read : operand fuel ts = .ok out) : ts ≠ [] := by
  rintro rfl
  cases fuel with
  | zero => cases read
  | succ fuel =>
    obtain ⟨e, refused⟩ := exists_route_nil_eq_error fuel
    rw [operand_of_plain (by rintro _ ⟨⟩) (by rintro _ ⟨⟩), refused] at read
    cases read

section Succ

variable {n : Nat} (h : AllExtend n)

include h

theorem route_extend {ts rest : List Token} {r : Route} (read : route (n + 1) ts = .ok (r, rest))
    {m : Nat} {u : List Token} (le : n ≤ m) (fits : Fits rest u) :
    route (m + 1) (ts ++ u) = .ok (r, rest ++ u) := by
  rw [route] at read ⊢
  split at read
  · cases read
  · next start behind started =>
    rw [h.routeStart started u le]
    exact h.routeFrom read le fits

theorem routeStart_extend {ts rest : List Token} {r : Route}
    (read : routeStart (n + 1) ts = .ok (r, rest)) {m : Nat} (u : List Token) (le : n ≤ m) :
    routeStart (m + 1) (ts ++ u) = .ok (r, rest ++ u) := by
  by_cases paren : ∃ inner, ts = .openParen :: inner
  · obtain ⟨inner, rfl⟩ := paren
    rw [routeStart] at read
    split at read
    · cases read
    · next r after inside =>
      obtain ⟨⟨_, left⟩, closed, eq⟩ := exists_of_map_ok read
      cases eq
      cases expect_eq_ok_iff.1 closed
      rw [List.cons_append, routeStart, h.route inside le (fits_of_ne_nil (List.cons_ne_nil _ _) u)]
      rfl
  · rw [routeStart_eq_plainStart fun inner eq => paren ⟨inner, eq⟩] at read
    rw [routeStart_eq_plainStart]
    · exact extends_plainStart ts u r rest read
    · intro inner eq
      cases ts with
      | nil => cases read
      | cons t ts => exact paren ⟨ts, congrArg (· :: ts) (List.cons.inj eq).1⟩

theorem nextPart_extend {o more : Route.Open} {ts rest : List Token}
    (next : nextPart n o ts = some (.ok (more, rest))) {m : Nat} (u : List Token) (le : n ≤ m) :
    nextPart m o (ts ++ u) = some (.ok (more, rest ++ u)) := by
  unfold nextPart at next
  split at next
  · next ts =>
    have read := ((extends_afterDot ts u).map fun _ _ => rfl) _ _ (Option.some.inj next)
    exact congrArg some read
  · next ts =>
    have read := ((extends_afterDot ts u).map fun _ _ => rfl) _ _ (Option.some.inj next)
    exact congrArg some read
  · next ts =>
    obtain ⟨⟨r, left⟩, started, eq⟩ := exists_of_map_ok (Option.some.inj next)
    cases eq
    show some ((routeStart m (ts ++ u)).map _) = _
    rw [h.routeStart started u le]
    rfl
  · next ts =>
    obtain ⟨⟨s, left⟩, inside, eq⟩ := exists_of_map_ok (Option.some.inj next)
    cases eq
    show some ((filterFrom m (ts ++ u)).map _) = _
    rw [h.filterFrom inside u le]
    rfl
  · next ts noFilter =>
    cases ts with
    | nil => cases next
    | cons t ts =>
      have read :=
        ((extends_plainBracket (t :: ts) u).map fun _ _ => rfl) _ _ (Option.some.inj next)
      rw [List.cons_append, List.cons_append, nextPart]
      · exact congrArg some read
      · rintro more eq
        exact noFilter ts (congrArg (· :: ts) (List.cons.inj eq).1)
  · cases next

theorem routeFrom_extend {o : Route.Open} {ts rest : List Token} {r : Route}
    (read : routeFrom (n + 1) o ts = .ok (r, rest)) {m : Nat} {u : List Token} (le : n ≤ m)
    (fits : Fits rest u) : routeFrom (m + 1) o (ts ++ u) = .ok (r, rest ++ u) := by
  rw [routeFrom_succ] at read ⊢
  split at read
  · next ends =>
    cases read
    rw [fits.nextPart_append ends]
  · cases read
  · next more behind next =>
    rw [nextPart_extend h next u le]
    exact h.routeFrom read le fits

theorem filterFrom_extend {ts rest : List Token} {s : Selector}
    (read : filterFrom (n + 1) ts = .ok (s, rest)) {m : Nat} (u : List Token) (le : n ≤ m) :
    filterFrom (m + 1) (ts ++ u) = .ok (s, rest ++ u) := by
  rw [filterFrom] at read ⊢
  split at read
  · cases read
  · next c after inside =>
    obtain ⟨⟨_, left⟩, closed, eq⟩ := exists_of_map_ok read
    cases eq
    cases expect_eq_ok_iff.1 closed
    rw [h.condition inside le (fits_of_ne_nil (List.cons_ne_nil _ _) u)]
    rfl

theorem condition_extend {ts rest : List Token} {c : Condition}
    (read : condition (n + 1) ts = .ok (c, rest)) {m : Nat} {u : List Token} (le : n ≤ m)
    (fits : Fits rest u) : condition (m + 1) (ts ++ u) = .ok (c, rest ++ u) := by
  rw [condition] at read ⊢
  split at read
  · cases read
  · next a after first =>
    obtain ⟨⟨b, left⟩, second, eq⟩ := exists_of_map_ok read
    cases eq
    rw [h.operand first le (fits_of_ne_nil (List.cons_ne_nil _ _) u)]
    show (condition m (after ++ u)).map _ = _
    rw [h.condition second le fits]
    rfl
  · next a behind notBoth first =>
    cases read
    rw [h.operand first le fits]
    have alone : ∀ more, rest ++ u ≠ .both :: more := by
      intro more eq
      cases rest with
      | nil =>
        cases fits rfl .both (by rw [show u = _ from eq]; rfl)
      | cons t rest =>
        cases eq
        exact notBoth rest rfl
    split
    · next eq => cases eq
    · next eq => exact absurd (Prod.mk.inj (Except.ok.inj eq)).2 (alone _)
    · next eq =>
      cases eq
      rfl

theorem behindParens_extend {c a : Condition} {ts rest : List Token}
    (read : behindParens n c ts = .ok (a, rest)) {m : Nat} {u : List Token} (le : n ≤ m)
    (fits : Fits rest u) : behindParens m c (ts ++ u) = .ok (a, rest ++ u) := by
  cases c with
  | matched r => exact bind_tested_append (fun inner fits => h.routeFrom inner le fits) read fits
  | unmatched r =>
    cases read
    rfl
  | compare r op l =>
    cases read
    rfl
  | both a b =>
    cases read
    rfl
  | guarded c =>
    cases read
    rfl

theorem operand_extend {ts rest : List Token} {c : Condition}
    (read : operand (n + 1) ts = .ok (c, rest)) {m : Nat} {u : List Token} (le : n ≤ m)
    (fits : Fits rest u) : operand (m + 1) (ts ++ u) = .ok (c, rest ++ u) := by
  have some := ne_nil_of_operand read
  by_cases paren : ∃ inner, ts = .openParen :: inner
  · obtain ⟨inner, rfl⟩ := paren
    obtain ⟨d, behind, inside, after⟩ := exists_of_operand_paren read
    have again := h.condition inside le (fits_of_ne_nil (List.cons_ne_nil _ _) u)
    rw [List.cons_append, operand_paren again]
    exact behindParens_extend h after le fits
  · by_cases bang : ∃ inner, ts = .bang :: inner
    · obtain ⟨inner, rfl⟩ := bang
      rw [operand] at read
      obtain ⟨⟨r, left⟩, first, eq⟩ := exists_of_map_ok read
      cases eq
      rw [List.cons_append, operand, h.route first le fits]
      rfl
    · have noParen : ∀ inner, ts = .openParen :: inner → False := fun inner eq => paren ⟨inner, eq⟩
      have noBang : ∀ inner, ts = .bang :: inner → False := fun inner eq => bang ⟨inner, eq⟩
      rw [operand_of_plain noParen noBang] at read
      rw [operand_append_of_plain some noParen noBang]
      exact bind_tested_append (fun first fits => h.route first le fits) read fits

end Succ

theorem exists_eq_succ_of_le {n m : Nat} (h : n + 1 ≤ m) : ∃ k, m = k + 1 ∧ n ≤ k := by
  cases m with
  | zero => cases h
  | succ k => exact ⟨k, rfl, Nat.le_of_succ_le_succ h⟩

theorem allExtend (n : Nat) : AllExtend n := by
  induction n with
  | zero => exact allExtend_zero
  | succ n ih =>
    constructor
    · intro ts r rest read m u le fits
      obtain ⟨m, rfl, enough⟩ := exists_eq_succ_of_le le
      exact route_extend ih read enough fits
    · intro ts r rest read m u le
      obtain ⟨m, rfl, enough⟩ := exists_eq_succ_of_le le
      exact routeStart_extend ih read u enough
    · intro o ts r rest read m u le fits
      obtain ⟨m, rfl, enough⟩ := exists_eq_succ_of_le le
      exact routeFrom_extend ih read enough fits
    · intro ts s rest read m u le
      obtain ⟨m, rfl, enough⟩ := exists_eq_succ_of_le le
      exact filterFrom_extend ih read u enough
    · intro ts c rest read m u le fits
      obtain ⟨m, rfl, enough⟩ := exists_eq_succ_of_le le
      exact condition_extend ih read enough fits
    · intro ts c rest read m u le fits
      obtain ⟨m, rfl, enough⟩ := exists_eq_succ_of_le le
      exact operand_extend ih read enough fits

/-! ## Operands that end with the text -/

/-- Reading a route comes to the last token, and more tokens are read on from there. -/
theorem exists_open_of_routeFrom {n : Nat} {o : Route.Open} {ts : List Token} {r : Route}
    (read : routeFrom n o ts = .ok (r, [])) : ∃ o' : Route.Open, r = o'.route ∧
      ∀ m u, n ≤ m → ∃ k, routeFrom m o (ts ++ u) = routeFrom k o' u := by
  induction n generalizing o ts with
  | zero => exact (unexpected_ne_ok read).elim
  | succ n ih =>
    rw [routeFrom_succ] at read
    split at read
    · cases read
      exact ⟨o, rfl, fun m u _ => ⟨m, rfl⟩⟩
    · cases read
    · next more behind next =>
      obtain ⟨o', rfl, goesOn⟩ := ih read
      refine ⟨o', rfl, fun m u le => ?_⟩
      obtain ⟨m, rfl, enough⟩ := exists_eq_succ_of_le le
      rw [routeFrom_succ, nextPart_extend (allExtend n) next u enough]
      exact goesOn m u enough

theorem exists_open_of_route {n : Nat} {ts : List Token} {r : Route}
    (read : route n ts = .ok (r, [])) : ∃ o : Route.Open, r = o.route ∧
      ∀ m u, n ≤ m → ∃ k, route m (ts ++ u) = routeFrom k o u := by
  cases n with
  | zero => exact (unexpected_ne_ok read).elim
  | succ n =>
    rw [route] at read
    split at read
    · cases read
    · next start behind started =>
      obtain ⟨o, rfl, goesOn⟩ := exists_open_of_routeFrom read
      refine ⟨o, rfl, fun m u le => ?_⟩
      obtain ⟨m, rfl, enough⟩ := exists_eq_succ_of_le le
      rw [route, (allExtend n).routeStart started u enough]
      exact goesOn m u enough

/-- What is read behind a route that has come to the last token: a comparison that is closed, or
whatever the route goes on with. -/
theorem closed_or_open (part : Nat → List Token → Parsed Route) {n : Nat} {ts : List Token}
    {c : Condition}
    (resumes : ∀ {r left}, part n ts = .ok (r, left) → ∀ {m u}, n ≤ m → Fits left u →
      part m (ts ++ u) = .ok (r, left ++ u))
    (opens : ∀ {r}, part n ts = .ok (r, []) → ∃ o : Route.Open, r = o.route ∧
      ∀ m u, n ≤ m → ∃ k, part m (ts ++ u) = routeFrom k o u)
    (read : ((part n ts).bind fun r => tested r.1 r.2) = .ok (c, [])) :
    (∀ m u, n ≤ m → ((part m (ts ++ u)).bind fun r => tested r.1 r.2) = .ok (c, u)) ∨
      ∃ o : Route.Open, c = .matched o.route ∧ ∀ m u, n ≤ m → ∃ k,
        ((part m (ts ++ u)).bind fun r => tested r.1 r.2) =
          (routeFrom k o u).bind fun r => tested r.1 r.2 := by
  cases first : part n ts with
  | error e =>
    rw [first] at read
    cases read
  | ok out =>
    obtain ⟨r, left⟩ := out
    rw [first] at read
    have compared : tested r left = .ok (c, []) := read
    cases left with
    | nil =>
      cases compared
      obtain ⟨o, rfl, goesOn⟩ := opens first
      refine .inr ⟨o, rfl, fun m u le => ?_⟩
      obtain ⟨k, same⟩ := goesOn m u le
      exact ⟨k, by rw [same]⟩
    | cons t left =>
      refine .inl fun m u le => ?_
      rw [resumes first le (fits_of_ne_nil (List.cons_ne_nil t left) u)]
      unfold tested at compared
      split at compared
      · cases compared
      · next op after compares =>
        have literal := ((extends_literal after u).map fun _ _ => rfl) c [] compared
        show tested r (t :: left ++ u) = _
        rw [tested, comparison?_cons_append, compares]
        exact literal

/-- The ways in which an operand comes to the last token. It may be closed, so that it is read the
same whatever follows, or end in a route that more tokens may go on with, or be a negated route. -/
inductive OperandEnds (n : Nat) (ts : List Token) : Condition → Prop where
  | closed {c : Condition} : (∀ m u, n ≤ m → operand m (ts ++ u) = .ok (c, u)) → OperandEnds n ts c
  | open {o : Route.Open} : (∀ m u, n ≤ m → ∃ k, operand m (ts ++ u) =
      (routeFrom k o u).bind fun r => tested r.1 r.2) → OperandEnds n ts (.matched o.route)
  | negated {inner : List Token} {k : Nat} {r : Route} : ts = .bang :: inner →
      route k inner = .ok (r, []) → OperandEnds n ts (.unmatched r)

theorem operandEnds_of_paren {n : Nat} {ts behind : List Token} {c d : Condition}
    (inside : condition n ts = .ok (d, .closeParen :: behind))
    (after : behindParens n d behind = .ok (c, [])) :
    OperandEnds (n + 1) (.openParen :: ts) c := by
  -- The condition in parentheses is read again, and then what is behind them.
  have again : ∀ {m} u, n ≤ m →
      operand (m + 1) (.openParen :: ts ++ u) = behindParens m d (behind ++ u) := by
    intro m u le
    apply operand_paren
    exact (allExtend n).condition inside le (fits_of_ne_nil (List.cons_ne_nil _ _) u)
  have closed : (∀ m u, n ≤ m → behindParens m d (behind ++ u) = .ok (c, u)) →
      OperandEnds (n + 1) (.openParen :: ts) c := by
    intro same
    refine .closed fun m u le => ?_
    obtain ⟨m, rfl, enough⟩ := exists_eq_succ_of_le le
    rw [again u enough]
    exact same m u enough
  cases d with
  | matched r =>
    rcases closed_or_open (fun k => routeFrom k (.ofRoute r))
      (fun first _ _ le fits => (allExtend n).routeFrom first le fits) exists_open_of_routeFrom
      after with same | ⟨o, rfl, goesOn⟩
    · exact closed same
    · refine .open fun m u le => ?_
      obtain ⟨m, rfl, enough⟩ := exists_eq_succ_of_le le
      rw [again u enough]
      exact goesOn m u enough
  | unmatched r =>
    cases after
    exact closed fun _ _ _ => rfl
  | compare r op l =>
    cases after
    exact closed fun _ _ _ => rfl
  | both a b =>
    cases after
    exact closed fun _ _ _ => rfl
  | guarded c =>
    cases after
    exact closed fun _ _ _ => rfl

theorem operandEnds_of_operand {n : Nat} {ts : List Token} {c : Condition}
    (read : operand n ts = .ok (c, [])) : OperandEnds n ts c := by
  have some := ne_nil_of_operand read
  cases n with
  | zero => exact (unexpected_ne_ok read).elim
  | succ n =>
    by_cases paren : ∃ inner, ts = .openParen :: inner
    · obtain ⟨inner, rfl⟩ := paren
      obtain ⟨d, behind, inside, after⟩ := exists_of_operand_paren read
      exact operandEnds_of_paren inside after
    · by_cases bang : ∃ inner, ts = .bang :: inner
      · obtain ⟨inner, rfl⟩ := bang
        rw [operand] at read
        obtain ⟨⟨r, left⟩, first, eq⟩ := exists_of_map_ok read
        cases eq
        exact .negated rfl first
      · have plain := operand_append_of_plain some (fun inner eq => paren ⟨inner, eq⟩)
          (fun inner eq => bang ⟨inner, eq⟩)
        rw [← List.append_nil ts, plain, List.append_nil] at read
        rcases closed_or_open route
          (fun first _ _ le fits => (allExtend n).route first le fits) exists_open_of_route
          read with same | ⟨o, rfl, goesOn⟩
        · refine .closed fun m u le => ?_
          obtain ⟨m, rfl, enough⟩ := exists_eq_succ_of_le le
          rw [plain]
          exact same m u enough
        · refine .open fun m u le => ?_
          obtain ⟨m, rfl, enough⟩ := exists_eq_succ_of_le le
          rw [plain]
          exact goesOn m u enough

end Intake.Query
