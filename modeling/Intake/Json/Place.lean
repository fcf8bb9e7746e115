import Intake.Json.Basic

set_option autoImplicit false

/-!
Places in a value, reached step by step: a key leads into an object, an index into an array.
`put` builds what is missing on the way and fails only where something of another kind is in the
way, having changed nothing. `erase` changes nothing where nothing is stored.
-/

namespace Intake

inductive Step where
  | key (k : Text)
  | index (i : Nat)
  deriving DecidableEq

namespace Json

def child? : Step → Json → Option Json
  | .key k, .object ms => Members.get? k ms
  | .index i, .array xs => xs[i]?
  | _, _ => none

def get? : List Step → Json → Option Json
  | [], v => some v
  | s :: rest, v => (v.child? s).bind (get? rest)

/-- A value stands `depth` steps down where an object or an array would have to be. -/
structure Blocked where
  depth : Nat
  found : Kind
  deriving DecidableEq

def Blocked.below (b : Blocked) : Blocked := { b with depth := b.depth + 1 }

/-- Where nothing or null is stored, an object may come. -/
def membersFor : Option Json → Except Blocked Members
  | none => .ok []
  | some (.atom .null) => .ok []
  | some (.object ms) => .ok ms
  | some v => .error ⟨0, v.kind⟩

/-- Where nothing or null is stored, an array may come. -/
def itemsFor : Option Json → Except Blocked (List Json)
  | none => .ok []
  | some (.atom .null) => .ok []
  | some (.array xs) => .ok xs
  | some v => .error ⟨0, v.kind⟩

/-- Elements before the written one: objects on the way to a deeper place, else nulls. -/
def filler : List Step → Json
  | [] => .null
  | _ :: _ => .object []

/-- Replaces an element, or adds it at the end behind as many fillers as its index asks for. -/
def setItem (i : Nat) (pad v : Json) (xs : List Json) : List Json :=
  if i < xs.length then xs.set i v else xs ++ List.replicate (i - xs.length) pad ++ [v]

/-- The value at a place after `v` has been written `rest` below it. -/
def put : List Step → Json → Option Json → Except Blocked Json
  | [], v, _ => .ok v
  | .key k :: rest, v, old =>
    (membersFor old).bind fun ms =>
      ((put rest v (Members.get? k ms)).mapError Blocked.below).map fun new =>
        .object (Members.set k new ms)
  | .index i :: rest, v, old =>
    (itemsFor old).bind fun xs =>
      ((put rest v xs[i]?).mapError Blocked.below).map fun new =>
        .array (setItem i (filler rest) new xs)

def putMember (k : Text) (rest : List Step) (v : Json) (ms : Members) : Except Blocked Members :=
  ((put rest v (Members.get? k ms)).mapError Blocked.below).map fun new => Members.set k new ms

def putItem (i : Nat) (rest : List Step) (v : Json) (xs : List Json) : Except Blocked (List Json) :=
  ((put rest v xs[i]?).mapError Blocked.below).map fun new => setItem i (filler rest) new xs

/-- Elements behind a removed one move up. -/
def erase : List Step → Json → Json
  | [], v => v
  | .key k :: rest, .object ms =>
    .object (if rest = [] then Members.erase k ms else Members.modify k (erase rest) ms)
  | .index i :: rest, .array xs =>
    .array (if rest = [] then xs.eraseIdx i else xs.modify i (erase rest))
  | _, v => v

def eraseMember (k : Text) (rest : List Step) (ms : Members) : Members :=
  if rest = [] then Members.erase k ms else Members.modify k (erase rest) ms

theorem putMember_ok {k : Text} {rest : List Step} {v new : Json} {ms : Members}
    (h : put rest v (Members.get? k ms) = .ok new) :
    putMember k rest v ms = .ok (Members.set k new ms) := by
  rw [putMember, h]
  rfl

theorem putMember_error {k : Text} {rest : List Step} {v : Json} {ms : Members} {b : Blocked}
    (h : put rest v (Members.get? k ms) = .error b) : putMember k rest v ms = .error b.below := by
  rw [putMember, h]
  rfl

theorem putItem_ok {i : Nat} {rest : List Step} {v new : Json} {xs : List Json}
    (h : put rest v xs[i]? = .ok new) :
    putItem i rest v xs = .ok (setItem i (filler rest) new xs) := by
  rw [putItem, h]
  rfl

theorem putItem_error {i : Nat} {rest : List Step} {v : Json} {xs : List Json} {b : Blocked}
    (h : put rest v xs[i]? = .error b) : putItem i rest v xs = .error b.below := by
  rw [putItem, h]
  rfl

theorem put_key (k : Text) (rest : List Step) (v : Json) (old : Option Json) :
    put (.key k :: rest) v old =
      (membersFor old).bind fun ms => (putMember k rest v ms).map .object := by
  cases h : membersFor old with
  | error b => simp [put, h, Except.bind]
  | ok ms =>
    simp only [put, h, putMember, Except.bind]
    cases (put rest v (Members.get? k ms)).mapError Blocked.below <;> rfl

theorem put_index (i : Nat) (rest : List Step) (v : Json) (old : Option Json) :
    put (.index i :: rest) v old =
      (itemsFor old).bind fun xs => (putItem i rest v xs).map .array := by
  cases h : itemsFor old with
  | error b => simp [put, h, Except.bind]
  | ok xs =>
    simp only [put, h, putItem, Except.bind]
    cases (put rest v xs[i]?).mapError Blocked.below <;> rfl

theorem put_key_of_members {k : Text} {rest : List Step} {v : Json} {old : Option Json}
    {ms : Members} (h : membersFor old = .ok ms) :
    put (.key k :: rest) v old = (putMember k rest v ms).map .object := by
  rw [put_key, h]
  rfl

theorem put_key_of_blocked {k : Text} {rest : List Step} {v : Json} {old : Option Json}
    {b : Blocked} (h : membersFor old = .error b) : put (.key k :: rest) v old = .error b := by
  rw [put_key, h]
  rfl

theorem put_index_of_items {i : Nat} {rest : List Step} {v : Json} {old : Option Json}
    {xs : List Json} (h : itemsFor old = .ok xs) :
    put (.index i :: rest) v old = (putItem i rest v xs).map .array := by
  rw [put_index, h]
  rfl

theorem put_index_of_blocked {i : Nat} {rest : List Step} {v : Json} {old : Option Json}
    {b : Blocked} (h : itemsFor old = .error b) : put (.index i :: rest) v old = .error b := by
  rw [put_index, h]
  rfl

theorem put_key_ok {k : Text} {rest : List Step} {v new : Json} {old : Option Json}
    (h : put (.key k :: rest) v old = .ok new) : ∃ ms inner, membersFor old = .ok ms ∧
      put rest v (Members.get? k ms) = .ok inner ∧ new = .object (Members.set k inner ms) := by
  cases hm : membersFor old with
  | error b =>
    rw [put_key_of_blocked hm] at h
    cases h
  | ok ms =>
    rw [put_key_of_members hm] at h
    cases hp : put rest v (Members.get? k ms) with
    | error b =>
      rw [putMember_error hp] at h
      cases h
    | ok inner =>
      rw [putMember_ok hp] at h
      cases h
      exact ⟨ms, inner, rfl, hp, rfl⟩

theorem put_index_ok {i : Nat} {rest : List Step} {v new : Json} {old : Option Json}
    (h : put (.index i :: rest) v old = .ok new) : ∃ xs inner, itemsFor old = .ok xs ∧
      put rest v xs[i]? = .ok inner ∧ new = .array (setItem i (filler rest) inner xs) := by
  cases hx : itemsFor old with
  | error b =>
    rw [put_index_of_blocked hx] at h
    cases h
  | ok xs =>
    rw [put_index_of_items hx] at h
    cases hp : put rest v xs[i]? with
    | error b =>
      rw [putItem_error hp] at h
      cases h
    | ok inner =>
      rw [putItem_ok hp] at h
      cases h
      exact ⟨xs, inner, rfl, hp, rfl⟩

theorem put_index_array (i : Nat) (rest : List Step) (v : Json) (xs : List Json) :
    put (.index i :: rest) v (some (.array xs)) = (putItem i rest v xs).map .array :=
  put_index i rest v (some (.array xs))

theorem put_key_object (k : Text) (rest : List Step) (v : Json) (ms : Members) :
    put (.key k :: rest) v (some (.object ms)) = (putMember k rest v ms).map .object :=
  put_key k rest v (some (.object ms))

/-- The object that a write goes into is the one stored there, or a new one. -/
theorem of_membersFor {old : Option Json} {ms : Members} (h : membersFor old = .ok ms) :
    old = some (.object ms) ∨ ((old = none ∨ old = some null) ∧ ms = []) := by
  unfold membersFor at h
  split at h <;> cases h
  · exact .inr ⟨.inl rfl, rfl⟩
  · exact .inr ⟨.inr rfl, rfl⟩
  · exact .inl rfl

theorem of_itemsFor {old : Option Json} {xs : List Json} (h : itemsFor old = .ok xs) :
    old = some (.array xs) ∨ ((old = none ∨ old = some null) ∧ xs = []) := by
  unfold itemsFor at h
  split at h <;> cases h
  · exact .inr ⟨.inl rfl, rfl⟩
  · exact .inr ⟨.inr rfl, rfl⟩
  · exact .inl rfl

/-- Where nothing is stored, nothing can be in the way. -/
theorem exists_put_none (steps : List Step) (v : Json) : ∃ new, put steps v none = .ok new := by
  induction steps with
  | nil => exact ⟨v, rfl⟩
  | cons s rest ih =>
    obtain ⟨inner, h⟩ := ih
    cases s with
    | key k =>
      refine ⟨.object [(k, inner)], ?_⟩
      rw [put, membersFor, Except.bind, Members.get?_nil, h]
      rfl
    | index i =>
      refine ⟨.array (setItem i (filler rest) inner []), ?_⟩
      rw [put, itemsFor, Except.bind, List.getElem?_nil, h]
      rfl

theorem exists_eq_some_of_put_error {steps : List Step} {v : Json} {old : Option Json}
    {b : Blocked} (h : put steps v old = .error b) : ∃ w, old = some w := by
  cases old with
  | some w => exact ⟨w, rfl⟩
  | none =>
    obtain ⟨new, hn⟩ := exists_put_none steps v
    rw [hn] at h
    cases h

theorem erase_key_object (k : Text) (rest : List Step) (ms : Members) :
    erase (.key k :: rest) (.object ms) = .object (eraseMember k rest ms) := rfl

theorem get?_append (p q : List Step) (v : Json) :
    get? (p ++ q) v = (get? p v).bind (get? q) := by
  induction p generalizing v with
  | nil => rfl
  | cons s rest ih =>
    simp only [List.cons_append, get?]
    cases v.child? s <;> simp [ih]

theorem wellKeyed_get? {steps : List Step} {v w : Json} (h : v.WellKeyed)
    (hw : get? steps v = some w) : w.WellKeyed := by
  induction steps generalizing v with
  | nil =>
    cases hw
    exact h
  | cons s rest ih =>
    obtain ⟨child, hc, hr⟩ := Option.bind_eq_some_iff.1 hw
    refine ih ?_ hr
    cases s <;> cases v <;> simp only [child?, reduceCtorEq] at hc
    · exact h.get? hc
    · exact h.items child (List.mem_of_getElem? hc)

theorem wellKeyed_filler (rest : List Step) : (filler rest).WellKeyed := by
  cases rest with
  | nil => exact .atom .null
  | cons s r => exact .object (by simp [Members.keys]) (by simp)

theorem wellKeyed_membersFor {old : Option Json} {ms : Members} (h : ∀ v ∈ old, v.WellKeyed)
    (hm : membersFor old = .ok ms) : (Json.object ms).WellKeyed := by
  have empty : (Json.object []).WellKeyed := .object (by simp [Members.keys]) (by simp)
  unfold membersFor at hm
  split at hm <;> cases hm
  · exact empty
  · exact empty
  · exact h _ rfl

theorem wellKeyed_itemsFor {old : Option Json} {xs : List Json} (h : ∀ v ∈ old, v.WellKeyed)
    (hx : itemsFor old = .ok xs) : (Json.array xs).WellKeyed := by
  have empty : (Json.array []).WellKeyed := .array (by simp)
  unfold itemsFor at hx
  split at hx <;> cases hx
  · exact empty
  · exact empty
  · exact h _ rfl

theorem wellKeyed_setItem {i : Nat} {pad v : Json} {xs : List Json} (hx : (Json.array xs).WellKeyed)
    (hp : pad.WellKeyed) (hv : v.WellKeyed) : (Json.array (setItem i pad v xs)).WellKeyed := by
  refine .array fun w hw => ?_
  unfold setItem at hw
  split at hw
  · rcases List.mem_or_eq_of_mem_set hw with h | rfl
    · exact hx.items w h
    · exact hv
  · simp only [List.append_assoc, List.mem_append, List.mem_replicate, List.mem_singleton] at hw
    rcases hw with h | ⟨_, rfl⟩ | rfl
    · exact hx.items w h
    · exact hp
    · exact hv

theorem wellKeyed_put {steps : List Step} {v new : Json} {old : Option Json} (hv : v.WellKeyed)
    (h : ∀ w ∈ old, w.WellKeyed) (hn : put steps v old = .ok new) : new.WellKeyed := by
  induction steps generalizing old new with
  | nil =>
    cases hn
    exact hv
  | cons s rest ih =>
    cases s with
    | key k =>
      obtain ⟨ms, inner, hm, hp, rfl⟩ := put_key_ok hn
      have wk := wellKeyed_membersFor h hm
      exact wk.set (ih (fun w hw => wk.get? hw) hp)
    | index i =>
      obtain ⟨xs, inner, hx, hp, rfl⟩ := put_index_ok hn
      have wk := wellKeyed_itemsFor h hx
      exact wellKeyed_setItem wk (wellKeyed_filler rest)
        (ih (fun w hw => wk.items w (List.mem_of_getElem? hw)) hp)

theorem wellKeyed_putMember {k : Text} {rest : List Step} {v : Json} {ms new : Members}
    (hv : v.WellKeyed) (h : (Json.object ms).WellKeyed) (hn : putMember k rest v ms = .ok new) :
    (Json.object new).WellKeyed := by
  have here : ∀ w ∈ some (Json.object ms), w.WellKeyed := fun w hw => by
    cases hw
    exact h
  exact wellKeyed_put hv here ((put_key_object k rest v ms).trans (by rw [hn]; rfl))

theorem wellKeyed_erase {steps : List Step} {v : Json} (h : v.WellKeyed) :
    (erase steps v).WellKeyed := by
  induction steps generalizing v with
  | nil => exact h
  | cons s rest ih =>
    cases s <;> cases v <;> simp only [erase] <;> try exact h
    · split
      · exact h.erase
      · exact h.modify fun _ => ih
    · refine .array fun w hw => ?_
      split at hw
      · exact h.items w (List.mem_of_mem_eraseIdx hw)
      · obtain ⟨j, hj⟩ := List.mem_iff_getElem?.1 hw
        rw [List.getElem?_modify] at hj
        obtain ⟨a, ha, rfl⟩ := Option.map_eq_some_iff.1 hj
        have wa := h.items a (List.mem_of_getElem? ha)
        split
        · exact ih wa
        · exact wa

theorem wellKeyed_eraseMember {k : Text} {rest : List Step} {ms : Members}
    (h : (Json.object ms).WellKeyed) : (Json.object (eraseMember k rest ms)).WellKeyed :=
  erase_key_object k rest ms ▸ wellKeyed_erase h

end Json
end Intake
