set_option autoImplicit false

/-!
# One part of a run after another

A sequence of two parts fails as the first part fails, and otherwise ends as the second part does
from where the first one ends. Both changes of answers and runs of commands are such sequences.
What both parts leave alone, the sequence leaves alone (`Keeps`). A list is read member by member,
and what stops the reading is the first member that is refused.
-/

namespace Intake

variable {ε σ α β : Type} {x : EStateM ε σ α} {s mid after : σ}

theorem bind_of_ok {a : α} (h : x s = .ok a mid) (f : α → EStateM ε σ β) :
    (x >>= f) s = f a mid := by
  simp only [bind, EStateM.bind, h]

theorem bind_of_error {e : ε} (h : x s = .error e mid) (f : α → EStateM ε σ β) :
    (x >>= f) s = .error e mid := by
  simp only [bind, EStateM.bind, h]

/-- A sequence that succeeds has come through its first part. -/
theorem exists_of_bind_ok {f : α → EStateM ε σ β} {b : β} (h : (x >>= f) s = .ok b after) :
    ∃ a mid, x s = .ok a mid ∧ f a mid = .ok b after := by
  cases run : x s with
  | ok a mid =>
    rw [bind_of_ok run] at h
    exact ⟨a, mid, rfl, h⟩
  | error e mid =>
    rw [bind_of_error run] at h
    cases h

/-! ## What a run leaves alone -/

/-- The state in which a run ends, whether it succeeds or fails. -/
def endState : EStateM.Result ε σ α → σ
  | .ok _ s => s
  | .error _ s => s

/-- A part of the state stays as it is. -/
def Keeps {γ : Type} (part : σ → γ) (x : EStateM ε σ α) : Prop :=
  ∀ s, part (endState (x s)) = part s

namespace Keeps

variable {γ : Type} {part : σ → γ}

theorem pure (a : α) : Keeps part (pure a : EStateM ε σ α) := fun _ => rfl

theorem throw (e : ε) : Keeps part (throw e : EStateM ε σ α) := fun _ => rfl

theorem get : Keeps part (get : EStateM ε σ σ) := fun _ => rfl

theorem modify {f : σ → σ} (h : ∀ s, part (f s) = part s) :
    Keeps part (modify f : EStateM ε σ PUnit) := h

theorem bind {f : α → EStateM ε σ β} (first : Keeps part x) (next : ∀ a, Keeps part (f a)) :
    Keeps part (x >>= f) := by
  intro s
  have here := first s
  cases run : x s with
  | ok a mid =>
    rw [run] at here
    rw [bind_of_ok run]
    exact (next a mid).trans here
  | error e mid =>
    rw [run] at here
    rw [bind_of_error run]
    exact here

end Keeps

/-! ## What is read -/

theorem exists_of_map_ok {x : Except ε α} {f : α → β} {b : β} (h : x.map f = .ok b) :
    ∃ a, x = .ok a ∧ f a = b := by
  cases x with
  | error e => cases h
  | ok a => exact ⟨a, rfl, Except.ok.inj h⟩

/-- Another name for the fault does not touch what succeeds. -/
theorem mapError_eq_ok_iff {ε' : Type} {x : Except ε α} {f : ε → ε'} {a : α} :
    x.mapError f = .ok a ↔ x = .ok a := by
  cases x with
  | error e => exact iff_of_false nofun nofun
  | ok b => exact ⟨fun h => congrArg Except.ok (Except.ok.inj h), fun h => h ▸ rfl⟩

theorem bind_eq_error_iff {x : Except ε α} {f : α → Except ε β} {e : ε} :
    (x >>= f) = .error e ↔ x = .error e ∨ ∃ a, x = .ok a ∧ f a = .error e := by
  cases x <;> simp [bind, Except.bind]

variable {f : α → Except ε β} {xs : List α}

/-- The first member that is refused, behind members that are not. -/
def FirstRefused (f : α → Except ε β) (xs : List α) (e : ε) : Prop :=
  ∃ earlier x later, xs = earlier ++ x :: later ∧ (∀ w ∈ earlier, ∃ b, f w = .ok b) ∧ f x = .error e

theorem firstRefused_cons_of_error {x : α} {e : ε} (h : f x = .error e) {e' : ε} :
    FirstRefused f (x :: xs) e' ↔ e = e' := by
  constructor
  · rintro ⟨earlier, y, later, eq, accepted, refused⟩
    cases earlier with
    | nil =>
      cases eq
      rw [h] at refused
      cases refused
      rfl
    | cons z earlier =>
      cases eq
      obtain ⟨b, read⟩ := accepted x List.mem_cons_self
      rw [h] at read
      cases read
  · rintro rfl
    exact ⟨[], x, xs, rfl, nofun, h⟩

theorem firstRefused_cons_of_ok {x : α} {b : β} (h : f x = .ok b) {e : ε} :
    FirstRefused f (x :: xs) e ↔ FirstRefused f xs e := by
  constructor
  · rintro ⟨earlier, y, later, eq, accepted, refused⟩
    cases earlier with
    | nil =>
      cases eq
      rw [h] at refused
      cases refused
    | cons z earlier =>
      cases eq
      exact ⟨earlier, y, later, rfl, (List.forall_mem_cons.1 accepted).2, refused⟩
  · rintro ⟨earlier, y, later, rfl, accepted, refused⟩
    exact ⟨x :: earlier, y, later, rfl, List.forall_mem_cons.2 ⟨⟨b, h⟩, accepted⟩, refused⟩

theorem not_firstRefused_nil {e : ε} : ¬ FirstRefused f [] e := by
  rintro ⟨earlier, x, later, eq, _⟩
  cases earlier <;> cases eq

theorem mapM_eq_error_iff {e : ε} : xs.mapM f = .error e ↔ FirstRefused f xs e := by
  induction xs with
  | nil => exact iff_of_false nofun not_firstRefused_nil
  | cons x xs ih =>
    rw [List.mapM_cons]
    cases first : f x with
    | error e' =>
      rw [firstRefused_cons_of_error first]
      simp [bind, Except.bind]
    | ok b =>
      rw [firstRefused_cons_of_ok first, ← ih]
      cases rest : xs.mapM f <;> simp [bind, Except.bind, pure, Except.pure]

/-- What a list is read into has been read from its members. -/
theorem exists_of_mem_mapM {ys : List β} (h : xs.mapM f = .ok ys) :
    ∀ y ∈ ys, ∃ x ∈ xs, f x = .ok y := by
  induction xs generalizing ys with
  | nil =>
    cases h
    exact fun _ mem => nomatch mem
  | cons x xs ih =>
    rw [List.mapM_cons] at h
    cases first : f x with
    | error e =>
      rw [first] at h
      cases h
    | ok z =>
      cases rest : xs.mapM f with
      | error e =>
        rw [first, rest] at h
        cases h
      | ok zs =>
        rw [first, rest] at h
        cases h
        intro y mem
        rcases List.mem_cons.1 mem with rfl | later
        · exact ⟨x, List.mem_cons_self, first⟩
        · obtain ⟨w, mem, read⟩ := ih rest y later
          exact ⟨w, List.mem_cons_of_mem _ mem, read⟩

/-- Parts that are joined are the first one, and each other behind the separator. -/
theorem intercalate_cons_eq_flatMap (sep l : List α) (ls : List (List α)) :
    List.intercalate sep (l :: ls) = l ++ ls.flatMap (sep ++ ·) := by
  induction ls generalizing l with
  | nil => rw [List.intercalate_singleton, List.flatMap_nil, List.append_nil]
  | cons m ls ih =>
    rw [List.intercalate_cons_cons, ih, List.flatMap_cons, List.append_assoc, List.append_assoc]

/-- Each part that is joined lies in the whole. -/
theorem infix_intercalate {sep l : List α} {ls : List (List α)} (h : l ∈ ls) :
    l <:+: List.intercalate sep ls := by
  cases ls with
  | nil => cases h
  | cons m ls =>
    rw [intercalate_cons_eq_flatMap]
    rcases List.mem_cons.1 h with rfl | later
    · exact (List.prefix_append _ _).isInfix
    · have behind : sep ++ l <:+: ls.flatMap (sep ++ ·) :=
        List.infix_of_mem_flatten (List.mem_map_of_mem later)
      have own : l <:+: sep ++ l := (List.suffix_append _ _).isInfix
      exact own.trans (behind.trans (List.suffix_append _ _).isInfix)

end Intake
