import Intake.Json.Place

set_option autoImplicit false

/-!
Storing a value in place. The walk to its place changes what it passes: an object or an array comes
where nothing or null was stored, and an array is filled up before its element is reached. A walk
that is stopped leaves what it has changed. `store_follows` says that this is nothing: below the
first thing it builds, nothing can be in the way.
-/

namespace Intake.Json

/-- What a container holds at one of its places, if anything. -/
abbrev Slot := Option Json

/-- A walk that changes a part `σ` of a value, also when it is stopped. -/
abbrev Walk (σ α : Type) := EStateM Blocked σ α

namespace Walk

/-- What a walk leaves, whether or not it was stopped. -/
def left {σ : Type} (walk : Walk σ Unit) (s : σ) : σ :=
  match walk s with
  | .ok _ t => t
  | .error _ t => t

def stop? {σ : Type} (walk : Walk σ Unit) (s : σ) : Option Blocked :=
  match walk s with
  | .ok _ _ => none
  | .error b _ => some b

/-- A walk that follows `r` leaves what `r` gives. Where `r` is blocked it is stopped, and
everything is as it was. -/
def Follows {σ τ : Type} (walk : Walk σ Unit) (r : σ → Except Blocked τ) (wrap : τ → σ) : Prop :=
  ∀ s, walk s = match r s with
    | .ok new => .ok () (wrap new)
    | .error b => .error b s

end Walk

/-- Works on the object at a place, which comes there first if nothing or null is stored. -/
def onMembers (inner : Walk Members Unit) : Walk Slot Unit := fun slot =>
  match membersFor slot with
  | .error b => .error b slot
  | .ok ms =>
    match inner ms with
    | .ok _ new => .ok () (some (.object new))
    | .error b new => .error b (some (.object new))

/-- Works on the array at a place, which comes there first if nothing or null is stored. -/
def onItems (inner : Walk (List Json) Unit) : Walk Slot Unit := fun slot =>
  match itemsFor slot with
  | .error b => .error b slot
  | .ok xs =>
    match inner xs with
    | .ok _ new => .ok () (some (.array new))
    | .error b new => .error b (some (.array new))

def inMember (k : Text) (inner : Walk Slot Unit) : Walk Members Unit := fun ms =>
  let back : Slot → Members := fun slot => slot.elim ms fun v => Members.set k v ms
  match inner (Members.get? k ms) with
  | .ok _ slot => .ok () (back slot)
  | .error b slot => .error b.below (back slot)

/-- Works on the element with an index, or on the empty place right behind the last one. -/
def inItem (i : Nat) (inner : Walk Slot Unit) : Walk (List Json) Unit := fun xs =>
  let back : Slot → List Json := fun slot =>
    slot.elim xs fun v => if i < xs.length then xs.set i v else xs ++ [v]
  match inner xs[i]? with
  | .ok _ slot => .ok () (back slot)
  | .error b slot => .error b.below (back slot)

/-- Adds fillers until an array has at least so many elements. -/
def fillUp (n : Nat) (pad : Json) : Walk (List Json) Unit :=
  modify fun xs => xs ++ List.replicate (n - xs.length) pad

def store : List Step → Json → Walk Slot Unit
  | [], v => set (some v)
  | .key k :: rest, v => onMembers (inMember k (store rest v))
  | .index i :: rest, v => onItems do
    fillUp i (filler rest)
    inItem i (store rest v)

def storeMember (k : Text) (rest : List Step) (v : Json) : Walk Members Unit :=
  inMember k (store rest v)

theorem inMember_follows {inner : Walk Slot Unit} {rest : List Step} {v : Json} (k : Text)
    (h : inner.Follows (put rest v) some) : (inMember k inner).Follows (putMember k rest v) id := by
  intro ms
  rw [inMember, h]
  cases hp : put rest v (Members.get? k ms) with
  | ok new =>
    rw [putMember_ok hp]
    rfl
  | error b =>
    obtain ⟨w, hw⟩ := exists_eq_some_of_put_error hp
    rw [putMember_error hp]
    simp only [hw, Option.elim, Members.set_of_get? hw]

theorem getElem?_filled (i : Nat) (pad : Json) (xs : List Json) :
    (xs ++ List.replicate (i - xs.length) pad)[i]? = xs[i]? := by
  by_cases h : i < xs.length
  · rw [List.getElem?_append_left h]
  · have h' : xs.length ≤ i := Nat.le_of_not_lt h
    rw [List.getElem?_append_right h', List.getElem?_eq_none h', List.getElem?_eq_none]
    simp

theorem inItem_follows {inner : Walk Slot Unit} {rest : List Step} {v : Json} (i : Nat)
    (h : inner.Follows (put rest v) some) :
    Walk.Follows (do fillUp i (filler rest); inItem i inner) (putItem i rest v) id := by
  intro xs
  have after : (do fillUp i (filler rest); inItem i inner : Walk (List Json) Unit) xs =
      inItem i inner (xs ++ List.replicate (i - xs.length) (filler rest)) := rfl
  rw [after]
  rw [inItem, h, getElem?_filled]
  by_cases hi : i < xs.length
  · have none_missing : i - xs.length = 0 := by omega
    rw [none_missing, List.replicate_zero, List.append_nil]
    cases hp : put rest v xs[i]? with
    | ok new =>
      rw [putItem_ok hp]
      simp [setItem, hi]
    | error b =>
      rw [putItem_error hp]
      simp [hi]
  · have absent : xs[i]? = none := List.getElem?_eq_none (Nat.le_of_not_lt hi)
    obtain ⟨new, hn⟩ := exists_put_none rest v
    have full : ¬ i < (xs ++ List.replicate (i - xs.length) (filler rest)).length := by
      simp; omega
    rw [absent, hn, putItem_ok (absent ▸ hn)]
    simp only [Option.elim, id, setItem, if_neg hi, if_neg full]

theorem onMembers_follows {inner : Walk Members Unit} {k : Text} {rest : List Step} {v : Json}
    (h : inner.Follows (putMember k rest v) id) :
    (onMembers inner).Follows (put (.key k :: rest) v) some := by
  intro slot
  rw [put_key]
  unfold onMembers
  cases hm : membersFor slot with
  | error b => rfl
  | ok ms =>
    simp only [h ms, Except.bind]
    cases hp : putMember k rest v ms with
    | ok new => rfl
    | error b =>
      -- what stopped the write stands in the object, so the object was there before
      have there : ms ≠ [] := by
        rintro rfl
        obtain ⟨new, hn⟩ := exists_put_none rest v
        rw [putMember_ok hn] at hp
        cases hp
      rcases of_membersFor hm with rfl | ⟨_, empty⟩
      · rfl
      · exact absurd empty there

theorem onItems_follows {inner : Walk (List Json) Unit} {i : Nat} {rest : List Step} {v : Json}
    (h : inner.Follows (putItem i rest v) id) :
    (onItems inner).Follows (put (.index i :: rest) v) some := by
  intro slot
  rw [put_index]
  unfold onItems
  cases hx : itemsFor slot with
  | error b => rfl
  | ok xs =>
    simp only [h xs, Except.bind]
    cases hp : putItem i rest v xs with
    | ok new => rfl
    | error b =>
      have there : xs ≠ [] := by
        rintro rfl
        obtain ⟨new, hn⟩ := exists_put_none rest v
        rw [putItem_ok hn] at hp
        cases hp
      rcases of_itemsFor hx with rfl | ⟨_, empty⟩
      · rfl
      · exact absurd empty there

theorem store_follows (steps : List Step) (v : Json) :
    (store steps v).Follows (put steps v) some := by
  induction steps with
  | nil => intro slot; rfl
  | cons s rest ih =>
    cases s with
    | key k => exact onMembers_follows (inMember_follows k ih)
    | index i => exact onItems_follows (inItem_follows i ih)

/-- A walk into an object is stopped before it has changed anything. -/
theorem storeMember_follows (k : Text) (rest : List Step) (v : Json) :
    (storeMember k rest v).Follows (putMember k rest v) id :=
  inMember_follows k (store_follows rest v)

theorem left_storeMember (k : Text) (rest : List Step) (v : Json) (ms : Members) :
    (storeMember k rest v).left ms = (putMember k rest v ms).toOption.getD ms := by
  rw [Walk.left, storeMember_follows k rest v ms]
  cases putMember k rest v ms <;> rfl

theorem stop?_storeMember (k : Text) (rest : List Step) (v : Json) (ms : Members) :
    (storeMember k rest v).stop? ms = match putMember k rest v ms with
      | .ok _ => none
      | .error b => some b := by
  rw [Walk.stop?, storeMember_follows k rest v ms]
  cases putMember k rest v ms <;> rfl

theorem wellKeyed_left_storeMember {k : Text} {rest : List Step} {v : Json} {ms : Members}
    (hv : v.WellKeyed) (hm : (Json.object ms).WellKeyed) :
    (Json.object ((storeMember k rest v).left ms)).WellKeyed := by
  rw [left_storeMember]
  cases hp : putMember k rest v ms with
  | ok new => exact wellKeyed_putMember hv hm hp
  | error b => exact hm

end Intake.Json
