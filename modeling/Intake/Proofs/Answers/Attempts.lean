import Intake.Proofs.Answers.Merging
import Intake.Proofs.Json.Elements

set_option autoImplicit false

/-!
# Changes one after the other, also behind those that fail

Changes that have no influence on one another end alike in every order (`attemptEach_perm`). Writes
to different elements of one array are such changes, wherever below their elements they write, and
so is what changes nothing (`Touches.commutes`).
-/

namespace Intake

namespace Edit

/-- The answers that a change leaves, and the fault of one that fails. -/
def attempt (x : Edit Unit) (d : Answers) : Answers × Option Fault :=
  match x d with
  | .ok _ new => (new, none)
  | .error e new => (new, some e)

section Attempts

variable {α : Type} (act : α → Edit Unit)

/-- Tries one change after the other. Those that fail are listed with their faults. -/
def attemptEach : List α → Answers → Answers × List (α × Fault)
  | [], d => (d, [])
  | x :: xs, d =>
    let here := attempt (act x) d
    let later := attemptEach xs here.1
    (later.1, here.2.toList.map (fun e => (x, e)) ++ later.2)

end Attempts

/-- Neither of two changes has an influence on whether and why the other fails, and they leave the
same, whichever comes first. -/
structure Commutes (x y : Edit Unit) (d : Answers) : Prop where
  state : (attempt y (attempt x d).1).1 = (attempt x (attempt y d).1).1
  first : (attempt x (attempt y d).1).2 = (attempt x d).2
  second : (attempt y (attempt x d).1).2 = (attempt y d).2

theorem Commutes.symm {x y : Edit Unit} {d : Answers} (h : Commutes x y d) : Commutes y x d :=
  ⟨h.state.symm, h.second, h.first⟩

theorem attemptEach_perm {α : Type} {act : α → Edit Unit} {xs ys : List α} (h : xs.Perm ys)
    (free : xs.Pairwise fun x y => ∀ d, Commutes (act x) (act y) d) (d : Answers) :
    (attemptEach act xs d).1 = (attemptEach act ys d).1 ∧
      (attemptEach act xs d).2.Perm (attemptEach act ys d).2 := by
  induction h generalizing d with
  | nil => exact ⟨rfl, .refl _⟩
  | cons x _ ih =>
    obtain ⟨state, failed⟩ := ih (List.pairwise_cons.1 free).2 (attempt (act x) d).1
    exact ⟨state, failed.append_left _⟩
  | swap x y xs =>
    have pair := (List.pairwise_cons.1 free).1 x List.mem_cons_self d
    constructor
    · simp only [attemptEach, pair.state]
    · simp only [attemptEach, pair.state, pair.first, pair.second]
      rw [← List.append_assoc, ← List.append_assoc]
      exact List.perm_append_comm.append_right _
  | trans one _ ih ih' =>
    have after := one.pairwise free fun free d => (free d).symm
    obtain ⟨state, failed⟩ := ih free d
    obtain ⟨state', failed'⟩ := ih' after d
    exact ⟨state.trans state', failed.trans failed'⟩

/-! ## Changes of elements -/

section Atoms

variable {q : Path} {a : Atom} {d : Answers}

theorem attempt_putAtom_of_locked (locked : d.locked = true) :
    attempt (putAtom q a) d = (d, some .locked) := by
  rw [attempt, putAtom, put, requireUnlocked_bind_of_locked locked]

theorem attempt_putAtom_ok {t : Json} (unlocked : d.locked = false) (inside : q.segments ≠ [])
    (h : Json.put q.steps (.atom a) (some d.tree) = .ok t) :
    ∃ new, attempt (putAtom q a) d = (new, none) ∧ new.tree = t ∧ new.locked = false ∧
      new.locale = d.locale := by
  obtain ⟨new, run, written⟩ := put_ok unlocked inside (.atom a) h
  refine ⟨new, ?_, ?_, written.locked.trans unlocked, written.locale⟩
  · rw [attempt, putAtom, run]
  · exact Except.ok.inj (written.tree.symm.trans h)

theorem attempt_putAtom_error {b : Json.Blocked} (unlocked : d.locked = false)
    (inside : q.segments ≠ []) (h : Json.put q.steps (.atom a) (some d.tree) = .error b) :
    attempt (putAtom q a) d = (d, some (q.blocked b)) := by
  have root : q.isRoot = false := by simpa [Path.isRoot] using inside
  rw [attempt, putAtom, (put_eq_error_iff (.atom a) unlocked root).2 ⟨rfl, b, rfl, h⟩]

end Atoms

section Writes

variable {q r : Path} {a b : Atom} {base tail : List Step} {n m : Nat} {d : Answers}

/-- What blocks a write to one element is not touched by a write to another. -/
theorem commutes_of_blocked {c : Json.Blocked} (ne : m ≠ n) (unlocked : d.locked = false)
    (inside : q.segments ≠ []) (inside' : r.segments ≠ [])
    (steps : q.steps = base ++ .index n :: tail) (steps' : r.steps = base ++ .index m :: tail)
    (blocked : Json.put q.steps (.atom a) (some d.tree) = .error c) :
    Commutes (putAtom q a) (putAtom r b) d := by
  have failed := attempt_putAtom_error unlocked inside blocked
  cases other : Json.put r.steps (.atom b) (some d.tree) with
  | error c' =>
    have failed' := attempt_putAtom_error unlocked inside' other
    constructor <;> simp only [failed, failed']
  | ok t =>
    obtain ⟨e, run, rfl, still, _⟩ := attempt_putAtom_ok unlocked inside' other
    rw [steps] at blocked
    rw [steps'] at other
    have again := Json.put_error_of_put ne other blocked
    rw [← steps] at again
    have later := attempt_putAtom_error still inside again
    constructor <;> simp only [failed, run, later]

theorem commutes_of_written {t u : Json} (fills : Json.Fills tail) (ne : n ≠ m)
    (unlocked : d.locked = false) (inside : q.segments ≠ []) (inside' : r.segments ≠ [])
    (steps : q.steps = base ++ .index n :: tail) (steps' : r.steps = base ++ .index m :: tail)
    (written : Json.put q.steps (.atom a) (some d.tree) = .ok t)
    (written' : Json.put r.steps (.atom b) (some d.tree) = .ok u) :
    Commutes (putAtom q a) (putAtom r b) d := by
  obtain ⟨e, run, rfl, still, locale⟩ := attempt_putAtom_ok unlocked inside written
  obtain ⟨e', run', rfl, still', locale'⟩ := attempt_putAtom_ok unlocked inside' written'
  rw [steps] at written
  rw [steps'] at written'
  obtain ⟨both, second, first⟩ := Json.put_comm fills ne written written'
  rw [← steps'] at second
  rw [← steps] at first
  obtain ⟨f, later, tree, stays, same⟩ := attempt_putAtom_ok still inside' second
  obtain ⟨f', later', tree', stays', same'⟩ := attempt_putAtom_ok still' inside first
  have equal : f = f' := Answers.eq_of_tree (tree.trans tree'.symm) (stays.trans stays'.symm)
    (by rw [same, same', locale, locale'])
  constructor <;> simp only [run, run', later, later', equal]

theorem commutes_putAtom (fills : Json.Fills tail) (ne : n ≠ m) (inside : q.segments ≠ [])
    (inside' : r.segments ≠ []) (steps : q.steps = base ++ .index n :: tail)
    (steps' : r.steps = base ++ .index m :: tail) : Commutes (putAtom q a) (putAtom r b) d := by
  cases locked : d.locked with
  | true =>
    have first := attempt_putAtom_of_locked (q := q) (a := a) locked
    have second := attempt_putAtom_of_locked (q := r) (a := b) locked
    constructor <;> simp only [first, second]
  | false =>
    cases hq : Json.put q.steps (.atom a) (some d.tree) with
    | error c => exact commutes_of_blocked ne.symm locked inside inside' steps steps' hq
    | ok t =>
      cases hr : Json.put r.steps (.atom b) (some d.tree) with
      | error c => exact (commutes_of_blocked ne locked inside' inside steps' steps hr).symm
      | ok u => exact commutes_of_written fills ne locked inside inside' steps steps' hq hr

end Writes

/-- What a change does to the array at `base`: it writes an atom into one element, at `tail` below
it, or it changes nothing and fails or succeeds whatever is stored. -/
inductive Touches (base tail : List Step) : Option (Nat × Atom) → Edit Unit → Prop where
  | idle {x : Edit Unit} (still : ∀ d, (attempt x d).1 = d)
      (alike : ∀ d e : Answers, d.locked = e.locked → (attempt x d).2 = (attempt x e).2) :
      Touches base tail none x
  | write {q : Path} {n : Nat} {a : Atom} (inside : q.segments ≠ [])
      (steps : q.steps = base ++ .index n :: tail) :
      Touches base tail (some (n, a)) (putAtom q a)

namespace Touches

variable {base tail : List Step} {s t : Option (Nat × Atom)} {x y : Edit Unit} {d : Answers}

theorem locked (h : Touches base tail t x) : (attempt x d).1.locked = d.locked := by
  cases h with
  | idle still => rw [still]
  | @write q n a inside =>
    cases hl : d.locked with
    | true => rw [attempt_putAtom_of_locked hl, hl]
    | false =>
      cases hp : Json.put q.steps (.atom a) (some d.tree) with
      | error b => rw [attempt_putAtom_error hl inside hp, hl]
      | ok new =>
        obtain ⟨new, run, _, still, _⟩ := attempt_putAtom_ok hl inside hp
        rw [run, still]

theorem commutes_of_idle (h : Touches base tail none x) (other : Touches base tail t y) :
    Commutes x y d := by
  cases h with
  | idle still alike => exact ⟨by rw [still, still], alike _ _ other.locked, by rw [still]⟩

theorem commutes (fills : Json.Fills tail) (hx : Touches base tail s x)
    (hy : Touches base tail t y)
    (apart : ∀ n a m b, s = some (n, a) → t = some (m, b) → n ≠ m) : Commutes x y d := by
  cases hx with
  | idle still alike => exact (idle still alike).commutes_of_idle hy
  | write inside steps =>
    cases hy with
    | idle still alike => exact ((idle still alike).commutes_of_idle (write inside steps)).symm
    | write inside' steps' =>
      exact commutes_putAtom fills (apart _ _ _ _ rfl rfl) inside inside' steps steps'

end Touches

/-- Writes to different elements end alike in every order. -/
theorem attemptEach_of_touches {α : Type} {act : α → Edit Unit} {touch : α → Option (Nat × Atom)}
    {base tail : List Step} {xs ys : List α} (fills : Json.Fills tail)
    (touches : ∀ x ∈ xs, Touches base tail (touch x) (act x))
    (apart : xs.Pairwise fun x y => ∀ s ∈ touch x, ∀ t ∈ touch y, s.1 ≠ t.1) (h : xs.Perm ys)
    (d : Answers) :
    (attemptEach act xs d).1 = (attemptEach act ys d).1 ∧
      (attemptEach act xs d).2.Perm (attemptEach act ys d).2 := by
  refine attemptEach_perm h (apart.imp_of_mem fun {x y} hx hy apart d => ?_) d
  exact (touches x hx).commutes fills (touches y hy) fun n a m b hs ht => apart _ hs _ ht

end Edit
end Intake
