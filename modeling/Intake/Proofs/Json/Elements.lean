import Intake.Proofs.Json.Put

set_option autoImplicit false

/-!
# Writes to different elements of one array

Elements that are added to an array before the written one are fillers, and a later write to such an
element comes to the same as if nothing were there (`Fills`). So two writes to different elements do
not disturb each other: each succeeds or is blocked as it would be alone, and which of them comes
first makes no difference (`put_comm`).
-/

namespace Intake.Json

/-! ## The elements of the array -/

theorem getElem?_setItem (i j : Nat) (pad v : Json) (xs : List Json) :
    (setItem i pad v xs)[j]? =
      if j = i then some v
      else if j < xs.length then xs[j]? else if j < i then some pad else none := by
  by_cases same : j = i
  · rw [if_pos same, same, getElem?_setItem_self]
  · rw [if_neg same]
    by_cases within : j < xs.length
    · rw [if_pos within, getElem?_setItem_of_lt within same]
    · rw [if_neg within, setItem]
      split
      · next inside =>
        have above : ¬ j < i := by omega
        rw [if_neg above, List.getElem?_set_ne (Ne.symm same), List.getElem?_eq_none (by omega)]
      · have behind : xs.length ≤ j := Nat.le_of_not_lt within
        rw [List.append_assoc, List.getElem?_append_right behind]
        by_cases before : j < i
        · rw [if_pos before, List.getElem?_append_left (by simp; omega),
            List.getElem?_replicate, if_pos (by omega)]
        · rw [if_neg before, List.getElem?_eq_none (by simp; omega)]

theorem length_setItem (i : Nat) (pad v : Json) (xs : List Json) :
    (setItem i pad v xs).length = max xs.length (i + 1) := by
  unfold setItem
  split
  · rw [List.length_set]
    omega
  · simp only [List.length_append, List.length_replicate, List.length_singleton]
    omega

theorem setItem_comm {i j : Nat} (ne : i ≠ j) (pad v w : Json) (xs : List Json) :
    setItem j pad w (setItem i pad v xs) = setItem i pad v (setItem j pad w xs) := by
  apply List.ext_getElem?
  intro n
  simp only [getElem?_setItem, length_setItem]
  grind

/-! ## Writes below the elements -/

/-- A write below a filler comes to the same as one where nothing is. -/
def Fills (tail : List Step) : Prop := ∀ v, put tail v (some (filler tail)) = put tail v none

theorem fills_nil : Fills [] := fun _ => rfl

theorem fills_key (k : Text) (rest : List Step) : Fills (.key k :: rest) := fun _ => rfl

variable {tail base : List Step} {i j : Nat} {v w t u : Json} {old : Option Json} {b : Blocked}

theorem put_item_of_setItem (fills : Fills tail) (ne : i ≠ j) (inner : Json) (xs : List Json) :
    put tail w (setItem i (filler tail) inner xs)[j]? = put tail w xs[j]? := by
  rw [getElem?_setItem, if_neg ne.symm]
  split
  · rfl
  · next outside =>
    rw [List.getElem?_eq_none (Nat.le_of_not_lt outside)]
    split
    · exact fills w
    · rfl

theorem put_key_set {k : Text} {rest : List Step} {ms : Members}
    (h : put rest v (some t) = .ok u) :
    put (.key k :: rest) v (some (.object (Members.set k t ms))) =
      .ok (.object (Members.set k u ms)) := by
  rw [← Members.get?_set_self k t ms] at h
  rw [put_key_object, putMember_ok h, Members.set_set]
  rfl

theorem put_index_setItem {n : Nat} {rest : List Step} (pad : Json) {xs : List Json}
    (h : put rest v (some t) = .ok u) :
    put (.index n :: rest) v (some (.array (setItem n pad t xs))) =
      .ok (.array (setItem n pad u xs)) := by
  rw [← getElem?_setItem_self n pad t xs] at h
  have within : n < (setItem n pad t xs).length := by
    rw [length_setItem]
    omega
  rw [put_index_array, putItem_ok h, setItem_congr_pad within _ pad, setItem_setItem]
  rfl

/-- Two writes to different elements end alike, whichever comes first. -/
theorem put_comm (fills : Fills tail) (ne : i ≠ j)
    (first : put (base ++ .index i :: tail) v old = .ok t)
    (second : put (base ++ .index j :: tail) w old = .ok u) :
    ∃ both, put (base ++ .index j :: tail) w (some t) = .ok both ∧
      put (base ++ .index i :: tail) v (some u) = .ok both := by
  induction base generalizing old t u with
  | nil =>
    obtain ⟨xs, x, items, hx, rfl⟩ := put_index_ok first
    obtain ⟨_, y, same, hy, rfl⟩ := put_index_ok second
    cases items.symm.trans same
    have later := (put_item_of_setItem fills ne x xs).trans hy
    have sooner := (put_item_of_setItem fills ne.symm y xs).trans hx
    refine ⟨.array (setItem j (filler tail) y (setItem i (filler tail) x xs)), ?_, ?_⟩
    · rw [List.nil_append, put_index_array, putItem_ok later]
      rfl
    · rw [List.nil_append, put_index_array, putItem_ok sooner, setItem_comm ne]
      rfl
  | cons s base ih =>
    cases s with
    | key k =>
      obtain ⟨ms, x, members, hx, rfl⟩ := put_key_ok first
      obtain ⟨_, y, same, hy, rfl⟩ := put_key_ok second
      cases members.symm.trans same
      obtain ⟨both, later, sooner⟩ := ih hx hy
      exact ⟨_, put_key_set later, put_key_set sooner⟩
    | index n =>
      obtain ⟨xs, x, items, hx, rfl⟩ := put_index_ok first
      obtain ⟨_, y, same, hy, rfl⟩ := put_index_ok second
      cases items.symm.trans same
      obtain ⟨both, later, sooner⟩ := ih hx hy
      have pads : filler (base.append (.index i :: tail)) =
          filler (base.append (.index j :: tail)) := by
        cases base <;> rfl
      rw [pads]
      exact ⟨_, put_index_setItem _ later, put_index_setItem _ sooner⟩

theorem not_obstructs_of_put {s : Step} {rest : List Step} {x : Json}
    (h : put (s :: rest) v (some x) = .ok t) : ¬ Obstructs s x := by
  intro stop
  rw [put_cons_error_iff.2 (.inl ⟨x, rfl, stop, rfl⟩)] at h
  cases h

/-- A write to one element gets nothing out of the way of a write to another. -/
theorem put_error_of_put (ne : i ≠ j) (first : put (base ++ .index i :: tail) v old = .ok t)
    (second : put (base ++ .index j :: tail) w old = .error b) :
    put (base ++ .index j :: tail) w (some t) = .error b := by
  induction base generalizing old t b with
  | nil =>
    obtain ⟨x, _, rebuilt⟩ := put_cons first
    rcases put_cons_error_iff.1 second with ⟨y, rfl, stop, _⟩ | ⟨c, below, rfl⟩
    · have alike : Obstructs (.index i) y := by cases y <;> exact stop
      exact absurd alike (not_obstructs_of_put first)
    · obtain ⟨y, there⟩ := exists_eq_some_of_put_error below
      have other : Step.index j ≠ .index i := fun e => ne (Step.index.inj e).symm
      have kept : (some t).bind (child? (.index j)) = some y := rebuilt.kept _ other y there
      rw [there, ← kept] at below
      exact put_cons_error_iff.2 (.inr ⟨c, below, rfl⟩)
  | cons s base ih =>
    obtain ⟨x, within, rebuilt⟩ := put_cons first
    rcases put_cons_error_iff.1 second with ⟨y, rfl, stop, _⟩ | ⟨c, below, rfl⟩
    · exact absurd stop (not_obstructs_of_put first)
    · have here : (some t).bind (child? s) = some x := rebuilt.here
      have still := ih within below
      rw [← here] at still
      exact put_cons_error_iff.2 (.inr ⟨c, still, rfl⟩)

/-- What blocks a write behind a place where nothing is stored is on the way to that place. -/
theorem put_append_error_iff {p q : List Step} (absent : old.bind (get? p) = none) (v w : Json) :
    put (p ++ q) v old = .error b ↔ put p w old = .error b := by
  rw [put_error_iff, put_error_iff]
  constructor
  · rintro ⟨pre, s, rest, x, split, here, stop, rfl⟩
    rcases List.append_eq_append_iff.1 split with ⟨more, rfl, _⟩ | ⟨more, way, rest_eq⟩
    · obtain ⟨whole, rfl, there⟩ := Option.bind_eq_some_iff.1 here
      rw [get?_append] at there
      rw [Option.bind_some] at absent
      rw [absent] at there
      cases there
    · cases more with
      | nil =>
        rw [List.append_nil] at way
        rw [way, here] at absent
        cases absent
      | cons r more =>
        obtain ⟨rfl, _⟩ := List.cons.inj rest_eq
        exact ⟨pre, s, more, x, way, here, stop, rfl⟩
  · rintro ⟨pre, s, rest, x, rfl, here, stop, rfl⟩
    exact ⟨pre, s, rest ++ q, x, by simp, here, stop, rfl⟩

end Intake.Json
