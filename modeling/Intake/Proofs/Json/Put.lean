import Intake.Json.Place

set_option autoImplicit false

/-!
# What a write does to a value

`put_cons` says what one step of a write makes of the value it passes, and `put_cons_error_iff`
when it is blocked. The rest follows from these two by induction on the steps: what is read at the
written place and beside it, which places are new, which keys an object gains, and which values
stand in the way. The last part is on writes behind and over one another.
-/

namespace Intake

/-- A key leads into an object and an index into an array. -/
def Step.fits : Step → Json → Bool
  | .key _, .object _ => true
  | .index _, .array _ => true
  | _, _ => false

namespace Json

/-- Neither place leads through the other. -/
def Independent (p q : List Step) : Prop := ¬ p <+: q ∧ ¬ q <+: p

theorem Independent.of_cons {s : Step} {p q : List Step} (h : Independent (s :: p) (s :: q)) :
    Independent p q :=
  ⟨fun hp => h.1 ((List.prefix_cons_inj s).2 hp), fun hq => h.2 ((List.prefix_cons_inj s).2 hq)⟩

def membersOf : Option Json → Members
  | some (.object ms) => ms
  | _ => []

def itemsOf : Option Json → List Json
  | some (.array xs) => xs
  | _ => []

/-- The keys of an object after a key has been set in it. -/
def withKey (k : Text) (ks : List Text) : List Text := if k ∈ ks then ks else ks ++ [k]

theorem membersOf_of_membersFor {old : Option Json} {ms : Members} (h : membersFor old = .ok ms) :
    membersOf old = ms := by
  rcases of_membersFor h with rfl | ⟨rfl | rfl, rfl⟩ <;> rfl

theorem itemsOf_of_itemsFor {old : Option Json} {xs : List Json} (h : itemsFor old = .ok xs) :
    itemsOf old = xs := by
  rcases of_itemsFor h with rfl | ⟨rfl | rfl, rfl⟩ <;> rfl

theorem bind_child?_key {old : Option Json} {ms : Members} (h : membersFor old = .ok ms)
    (k : Text) : old.bind (child? (.key k)) = Members.get? k ms := by
  rcases of_membersFor h with rfl | ⟨rfl | rfl, rfl⟩ <;> rfl

theorem bind_child?_index {old : Option Json} {xs : List Json} (h : itemsFor old = .ok xs)
    (i : Nat) : old.bind (child? (.index i)) = xs[i]? := by
  rcases of_itemsFor h with rfl | ⟨rfl | rfl, rfl⟩ <;> rfl

/-- A value that a step does not fit stops a write there, unless it is null. -/
def Obstructs (s : Step) (w : Json) : Prop := w.isNull = false ∧ s.fits w = false

theorem membersFor_eq_error_iff (k : Text) {old : Option Json} {b : Blocked} :
    membersFor old = .error b ↔ ∃ w, old = some w ∧ Obstructs (.key k) w ∧ b = ⟨0, w.kind⟩ := by
  constructor
  · intro h
    cases old with
    | none => cases h
    | some w =>
      refine ⟨w, rfl, ?_⟩
      cases w with
      | atom a => cases a <;> cases h <;> exact ⟨⟨rfl, rfl⟩, rfl⟩
      | array xs => cases h; exact ⟨⟨rfl, rfl⟩, rfl⟩
      | object ms => cases h
  · rintro ⟨w, rfl, ⟨hn, hf⟩, rfl⟩
    cases w with
    | atom a => cases a <;> first | rfl | cases hn
    | array xs => rfl
    | object ms => cases hf

theorem itemsFor_eq_error_iff (i : Nat) {old : Option Json} {b : Blocked} :
    itemsFor old = .error b ↔ ∃ w, old = some w ∧ Obstructs (.index i) w ∧ b = ⟨0, w.kind⟩ := by
  constructor
  · intro h
    cases old with
    | none => cases h
    | some w =>
      refine ⟨w, rfl, ?_⟩
      cases w with
      | atom a => cases a <;> cases h <;> exact ⟨⟨rfl, rfl⟩, rfl⟩
      | array xs => cases h
      | object ms => cases h; exact ⟨⟨rfl, rfl⟩, rfl⟩
  · rintro ⟨w, rfl, ⟨hn, hf⟩, rfl⟩
    cases w with
    | atom a => cases a <;> first | rfl | cases hn
    | array xs => cases hf
    | object ms => rfl

/-! ## Elements of an array after one of them was set -/

theorem getElem?_setItem_self (i : Nat) (pad v : Json) (xs : List Json) :
    (setItem i pad v xs)[i]? = some v := by
  unfold setItem
  split
  · next h => rw [List.getElem?_set_self h]
  · next h =>
    have behind : (xs ++ List.replicate (i - xs.length) pad).length = i := by simp; omega
    rw [List.getElem?_append_right (by omega), behind, Nat.sub_self]
    rfl

theorem getElem?_setItem_of_lt {i j : Nat} {xs : List Json} (hj : j < xs.length) (ne : j ≠ i)
    (pad v : Json) : (setItem i pad v xs)[j]? = xs[j]? := by
  unfold setItem
  split
  · rw [List.getElem?_set_ne ne.symm]
  · rw [List.append_assoc, List.getElem?_append_left hj]

theorem of_getElem?_setItem {i j : Nat} {pad v w : Json} {xs : List Json} (ne : j ≠ i)
    (absent : xs[j]? = none) (h : (setItem i pad v xs)[j]? = some w) :
    xs.length ≤ j ∧ j < i ∧ w = pad := by
  have behind : xs.length ≤ j := List.getElem?_eq_none_iff.1 absent
  unfold setItem at h
  split at h
  · rw [List.getElem?_set_ne ne.symm, absent] at h
    cases h
  · have bound := (List.getElem?_eq_some_iff.1 h).1
    simp only [List.length_append, List.length_replicate, List.length_singleton] at bound
    have before : j < i := by omega
    rw [List.append_assoc, List.getElem?_append_right behind,
      List.getElem?_append_left (by simp; omega), List.getElem?_replicate] at h
    split at h <;> cases h
    exact ⟨behind, before, rfl⟩

theorem setItem_setItem (i : Nat) (pad v w : Json) (xs : List Json) :
    setItem i pad w (setItem i pad v xs) = setItem i pad w xs := by
  by_cases h : i < xs.length
  · have still : i < (xs.set i v).length := by rwa [List.length_set]
    simp only [setItem, if_pos h, if_pos still, List.set_set]
  · have full : (xs ++ List.replicate (i - xs.length) pad).length = i := by simp; omega
    have last : i < (xs ++ List.replicate (i - xs.length) pad ++ [v]).length := by
      rw [List.length_append, full]
      exact Nat.lt_succ_self i
    simp only [setItem, if_neg h, if_pos last]
    rw [List.set_append_right i w (Nat.le_of_eq full), full, Nat.sub_self]
    rfl

theorem setItem_of_getElem? {i : Nat} {v : Json} {xs : List Json} (pad : Json)
    (h : xs[i]? = some v) : setItem i pad v xs = xs := by
  obtain ⟨hi, rfl⟩ := List.getElem?_eq_some_iff.1 h
  rw [setItem, if_pos hi, List.set_getElem_self]

/-! ## One step -/

/-- What a step of a write makes of the value `old`, with `inner` behind the step: the other places
keep what they hold, and new ones are fillers of an array before the element that is written. -/
structure Rebuilt (s : Step) (pad : Json) (old : Option Json) (inner new : Json) : Prop where
  here : new.child? s = some inner
  kept : ∀ t ≠ s, ∀ w, old.bind (child? t) = some w → new.child? t = some w
  added : ∀ t ≠ s, ∀ w, old.bind (child? t) = none → new.child? t = some w →
    ∃ i j, s = .index i ∧ t = .index j ∧ (itemsOf old).length ≤ j ∧ j < i ∧ w = pad
  keys : ∀ ns, new = .object ns →
    ∃ k, s = .key k ∧ Members.keys ns = withKey k (Members.keys (membersOf old))
  object : ∀ ms, old = some (.object ms) → ∃ ns, new = .object ns

theorem rebuilt_set {k : Text} {pad : Json} {old : Option Json} {ms : Members} (inner : Json)
    (h : membersFor old = .ok ms) :
    Rebuilt (.key k) pad old inner (.object (Members.set k inner ms)) where
  here := Members.get?_set_self k inner ms
  kept t ne w hw := by
    cases t with
    | key j =>
      rw [bind_child?_key h] at hw
      exact (Members.get?_set_of_ne (fun e => ne (congrArg Step.key e)) inner ms).trans hw
    | index j =>
      rcases of_membersFor h with rfl | ⟨rfl | rfl, rfl⟩ <;> cases hw
  added t ne w absent hw := by
    cases t with
    | key j =>
      rw [bind_child?_key h] at absent
      rw [child?, Members.get?_set_of_ne (fun e => ne (congrArg Step.key e)), absent] at hw
      cases hw
    | index j => cases hw
  keys ns hn := by
    cases hn
    rw [membersOf_of_membersFor h, Members.keys_set]
    exact ⟨k, rfl, rfl⟩
  object _ _ := ⟨_, rfl⟩

theorem rebuilt_setItem {i : Nat} {pad : Json} {old : Option Json} {xs : List Json} (inner : Json)
    (h : itemsFor old = .ok xs) :
    Rebuilt (.index i) pad old inner (.array (setItem i pad inner xs)) where
  here := getElem?_setItem_self i pad inner xs
  kept t ne w hw := by
    cases t with
    | key j =>
      rcases of_itemsFor h with rfl | ⟨rfl | rfl, rfl⟩ <;> cases hw
    | index j =>
      rw [bind_child?_index h] at hw
      have hj := (List.getElem?_eq_some_iff.1 hw).1
      exact (getElem?_setItem_of_lt hj (fun e => ne (congrArg Step.index e)) pad inner).trans hw
  added t ne w absent hw := by
    cases t with
    | key j => cases hw
    | index j =>
      rw [bind_child?_index h] at absent
      have place := of_getElem?_setItem (fun e => ne (congrArg Step.index e)) absent hw
      rw [itemsOf_of_itemsFor h]
      exact ⟨i, j, rfl, rfl, place⟩
  keys ns hn := by cases hn
  object ms hm := by
    subst hm
    cases h

/-- A write that succeeds writes behind its first step and rebuilds the value around it. -/
theorem put_cons {s : Step} {rest : List Step} {v new : Json} {old : Option Json}
    (h : put (s :: rest) v old = .ok new) :
    ∃ inner, put rest v (old.bind (child? s)) = .ok inner ∧
      Rebuilt s (filler rest) old inner new := by
  cases s with
  | key k =>
    obtain ⟨ms, inner, hm, hp, rfl⟩ := put_key_ok h
    exact ⟨inner, by rwa [bind_child?_key hm], rebuilt_set inner hm⟩
  | index i =>
    obtain ⟨xs, inner, hx, hp, rfl⟩ := put_index_ok h
    exact ⟨inner, by rwa [bind_child?_index hx], rebuilt_setItem inner hx⟩

/-- A write is blocked by the value it comes to, or behind its first step. -/
theorem put_cons_error_iff {s : Step} {rest : List Step} {v : Json} {old : Option Json}
    {b : Blocked} : put (s :: rest) v old = .error b ↔
      (∃ w, old = some w ∧ Obstructs s w ∧ b = ⟨0, w.kind⟩) ∨
        ∃ c, put rest v (old.bind (child? s)) = .error c ∧ b = c.below := by
  constructor
  · intro h
    cases s with
    | key k =>
      cases hm : membersFor old with
      | error c =>
        rw [put_key_of_blocked hm] at h
        cases h
        exact .inl ((membersFor_eq_error_iff k).1 hm)
      | ok ms =>
        rw [put_key_of_members hm] at h
        rw [bind_child?_key hm]
        cases hp : put rest v (Members.get? k ms) with
        | error c =>
          rw [putMember_error hp] at h
          cases h
          exact .inr ⟨c, rfl, rfl⟩
        | ok inner =>
          rw [putMember_ok hp] at h
          cases h
    | index i =>
      cases hx : itemsFor old with
      | error c =>
        rw [put_index_of_blocked hx] at h
        cases h
        exact .inl ((itemsFor_eq_error_iff i).1 hx)
      | ok xs =>
        rw [put_index_of_items hx] at h
        rw [bind_child?_index hx]
        cases hp : put rest v xs[i]? with
        | error c =>
          rw [putItem_error hp] at h
          cases h
          exact .inr ⟨c, rfl, rfl⟩
        | ok inner =>
          rw [putItem_ok hp] at h
          cases h
  · rintro (here | ⟨c, hc, rfl⟩)
    · cases s with
      | key k => exact put_key_of_blocked ((membersFor_eq_error_iff k).2 here)
      | index i => exact put_index_of_blocked ((itemsFor_eq_error_iff i).2 here)
    · obtain ⟨w, hw⟩ := exists_eq_some_of_put_error hc
      obtain ⟨outer, rfl, child⟩ := Option.bind_eq_some_iff.1 hw
      rw [hw, ← child] at hc
      cases s <;> cases outer <;> simp only [child?, reduceCtorEq] at child
      next k ms =>
        rw [put_key_object, putMember_error hc]
        rfl
      next i xs =>
        rw [put_index_array, putItem_error hc]
        rfl

/-! ## Whole writes -/

theorem get?_put_self {steps : List Step} {v new : Json} {old : Option Json}
    (h : put steps v old = .ok new) : new.get? steps = some v := by
  induction steps generalizing old new with
  | nil =>
    cases h
    rfl
  | cons s rest ih =>
    obtain ⟨inner, written, rebuilt⟩ := put_cons h
    rw [get?, rebuilt.here]
    exact ih written

theorem bind_get?_cons (old : Option Json) (s : Step) (rest : List Step) :
    old.bind (get? (s :: rest)) = (old.bind (child? s)).bind (get? rest) := by
  cases old <;> rfl

theorem get?_put_of_independent {p q : List Step} {v w new : Json} {old : Option Json}
    (h : put p v old = .ok new) (free : Independent p q) (hw : old.bind (get? q) = some w) :
    new.get? q = some w := by
  induction p generalizing q old new with
  | nil => exact absurd (List.nil_prefix) free.1
  | cons s rest ih =>
    cases q with
    | nil => exact absurd (List.nil_prefix) free.2
    | cons t tail =>
      obtain ⟨inner, written, rebuilt⟩ := put_cons h
      rw [bind_get?_cons] at hw
      by_cases same : t = s
      · subst same
        rw [get?, rebuilt.here]
        exact ih written free.of_cons hw
      · obtain ⟨child, hc, below⟩ := Option.bind_eq_some_iff.1 hw
        rw [get?, rebuilt.kept t same child hc]
        exact below

theorem get?_filler {steps rest : List Step} {w : Json} (h : (filler rest).get? steps = some w) :
    steps = [] ∧ w = filler rest := by
  cases steps with
  | nil =>
    cases h
    exact ⟨rfl, rfl⟩
  | cons s tail =>
    rw [get?] at h
    cases rest <;> cases s <;> cases h

/-- A place that is new and independent of the written one is a filler of an array on the way. -/
theorem filler_of_get?_put {p q : List Step} {v w new : Json} {old : Option Json}
    (h : put p v old = .ok new) (free : Independent p q) (absent : old.bind (get? q) = none)
    (hw : new.get? q = some w) :
    ∃ pre i rest j, p = pre ++ .index i :: rest ∧ q = pre ++ [.index j] ∧
      (itemsOf (old.bind (get? pre))).length ≤ j ∧ j < i ∧ w = filler rest := by
  induction p generalizing q old new with
  | nil => exact absurd (List.nil_prefix) free.1
  | cons s rest ih =>
    cases q with
    | nil => exact absurd (List.nil_prefix) free.2
    | cons t tail =>
      obtain ⟨inner, written, rebuilt⟩ := put_cons h
      rw [bind_get?_cons] at absent
      by_cases same : t = s
      · subst same
        rw [get?, rebuilt.here] at hw
        obtain ⟨pre, i, r, j, rfl, rfl, bound, before, hf⟩ := ih written free.of_cons absent hw
        exact ⟨t :: pre, i, r, j, rfl, rfl, by rwa [bind_get?_cons], before, hf⟩
      · rw [get?] at hw
        obtain ⟨child, hc, below⟩ := Option.bind_eq_some_iff.1 hw
        cases ho : old.bind (child? t) with
        | some c =>
          -- a kept value holds what it held
          obtain rfl : c = child := by
            have kept := rebuilt.kept t same c ho
            rw [hc] at kept
            exact (Option.some.inj kept).symm
          rw [ho, Option.bind_some, below] at absent
          cases absent
        | none =>
          obtain ⟨i, j, rfl, rfl, bound, before, rfl⟩ := rebuilt.added t same child ho hc
          obtain ⟨rfl, rfl⟩ := get?_filler below
          refine ⟨[], i, rest, j, rfl, rfl, ?_, before, rfl⟩
          cases old <;> exact bound

/-- An object on the way keeps its keys in their order, and may gain the one that is stepped to. -/
theorem keys_put {p pre : List Step} {v new : Json} {old : Option Json} {ns : Members}
    (h : put p v old = .ok new) (way : pre <+: p) (proper : pre ≠ p)
    (hn : new.get? pre = some (.object ns)) :
    ∃ k, pre ++ [.key k] <+: p ∧
      Members.keys ns = withKey k (Members.keys (membersOf (old.bind (get? pre)))) := by
  induction p generalizing pre old new with
  | nil => exact absurd (List.prefix_nil.1 way) proper
  | cons s rest ih =>
    obtain ⟨inner, written, rebuilt⟩ := put_cons h
    cases pre with
    | nil =>
      obtain ⟨k, rfl, hk⟩ := rebuilt.keys ns (Option.some.inj hn)
      refine ⟨k, by simp, ?_⟩
      cases old <;> exact hk
    | cons t pre =>
      obtain ⟨rfl, deeper⟩ := List.cons_prefix_cons.1 way
      rw [get?, rebuilt.here] at hn
      obtain ⟨k, next, hk⟩ := ih written deeper (fun e => proper (e ▸ rfl)) hn
      refine ⟨k, by simpa using next, ?_⟩
      rw [bind_get?_cons]
      exact hk

theorem object_put {p pre : List Step} {v new : Json} {old : Option Json} {ms : Members}
    (h : put p v old = .ok new) (way : pre <+: p) (proper : pre ≠ p)
    (hm : old.bind (get? pre) = some (.object ms)) : ∃ ns, new.get? pre = some (.object ns) := by
  induction p generalizing pre old new with
  | nil => exact absurd (List.prefix_nil.1 way) proper
  | cons s rest ih =>
    obtain ⟨inner, written, rebuilt⟩ := put_cons h
    cases pre with
    | nil =>
      obtain ⟨w, rfl, hw⟩ := Option.bind_eq_some_iff.1 hm
      obtain ⟨ns, rfl⟩ := rebuilt.object ms hw
      exact ⟨ns, rfl⟩
    | cons t pre =>
      obtain ⟨rfl, deeper⟩ := List.cons_prefix_cons.1 way
      rw [bind_get?_cons] at hm
      rw [get?, rebuilt.here]
      exact ih written deeper (fun e => proper (e ▸ rfl)) hm

/-- A write is blocked exactly where a value on its way stops it, and says where and by what. -/
theorem put_error_iff {steps : List Step} {v : Json} {old : Option Json} {b : Blocked} :
    put steps v old = .error b ↔ ∃ pre s rest w, steps = pre ++ s :: rest ∧
      old.bind (get? pre) = some w ∧ Obstructs s w ∧ b = ⟨pre.length, w.kind⟩ := by
  induction steps generalizing old b with
  | nil =>
    constructor
    · intro h
      cases h
    · rintro ⟨pre, s, rest, w, split, _⟩
      simp at split
  | cons t tail ih =>
    rw [put_cons_error_iff]
    constructor
    · rintro (⟨w, rfl, stop, rfl⟩ | ⟨c, hc, rfl⟩)
      · exact ⟨[], t, tail, w, rfl, rfl, stop, rfl⟩
      · obtain ⟨pre, s, rest, w, rfl, hw, stop, rfl⟩ := ih.1 hc
        exact ⟨t :: pre, s, rest, w, rfl, by rwa [bind_get?_cons], stop, rfl⟩
    · rintro ⟨pre, s, rest, w, split, hw, stop, rfl⟩
      cases pre with
      | nil =>
        obtain ⟨rfl, rfl⟩ := List.cons.inj split
        refine .inl ⟨w, ?_, stop, rfl⟩
        cases old <;> exact hw
      | cons r pre =>
        obtain ⟨rfl, rfl⟩ := List.cons.inj split
        rw [bind_get?_cons] at hw
        exact .inr ⟨⟨pre.length, w.kind⟩, ih.2 ⟨pre, s, rest, w, rfl, hw, stop, rfl⟩, rfl⟩

/-! ## Writes over and behind one another -/

/-- Of two writes at one place the second counts. -/
theorem put_put {steps : List Step} {v t : Json} {old : Option Json}
    (h : put steps v old = .ok t) (w : Json) : put steps w (some t) = put steps w old := by
  induction steps generalizing old t with
  | nil => rfl
  | cons s rest ih =>
    cases s with
    | key k =>
      obtain ⟨ms, inner, hm, hp, rfl⟩ := put_key_ok h
      rw [put_key_object, put_key_of_members hm]
      simp only [putMember, Members.get?_set_self, ih hp, Members.set_set]
    | index i =>
      obtain ⟨xs, inner, hx, hp, rfl⟩ := put_index_ok h
      rw [put_index_array, put_index_of_items hx]
      simp only [putItem, getElem?_setItem_self, ih hp, setItem_setItem]

theorem setItem_congr_pad {i : Nat} {xs : List Json} (h : i < xs.length) (pad pad' v : Json) :
    setItem i pad v xs = setItem i pad' v xs := by
  rw [setItem, setItem, if_pos h, if_pos h]

/-- A write behind a stored value replaces that value by what the write makes of it. -/
theorem put_append {p q : List Step} {v w new t : Json} (hw : t.get? p = some w)
    (h : put q v (some w) = .ok new) : put (p ++ q) v (some t) = put p new (some t) := by
  induction p generalizing t with
  | nil =>
    cases hw
    exact h
  | cons s rest ih =>
    obtain ⟨child, hc, below⟩ := Option.bind_eq_some_iff.1 hw
    cases s <;> cases t <;> simp only [child?, reduceCtorEq] at hc
    next k ms =>
      simp only [List.cons_append, put_key_object, putMember, hc, ih below]
    next i xs =>
      have hi := (List.getElem?_eq_some_iff.1 hc).1
      have pads := setItem_congr_pad hi (filler (rest ++ q)) (filler rest)
      simp only [List.cons_append, put_index_array, putItem, hc, ih below, pads]

/-- A write goes through every place on its way, and writes the rest of the way there. -/
theorem get?_put_append {p q : List Step} {v new : Json} {old : Option Json}
    (h : put (p ++ q) v old = .ok new) :
    ∃ inner, put q v (old.bind (get? p)) = .ok inner ∧ new.get? p = some inner := by
  induction p generalizing old new with
  | nil => exact ⟨new, by cases old <;> exact h, rfl⟩
  | cons s p ih =>
    obtain ⟨child, written, rebuilt⟩ := put_cons h
    obtain ⟨inner, below, here⟩ := ih written
    refine ⟨inner, bind_get?_cons old s p ▸ below, ?_⟩
    rw [get?, rebuilt.here]
    exact here

/-- A write of a member leaves the object with that key set. -/
theorem get?_put_key {pre : List Step} {k : Text} {v new : Json} {old : Option Json}
    (h : put (pre ++ [.key k]) v old = .ok new) :
    new.get? pre = some (.object (Members.set k v (membersOf (old.bind (get? pre))))) := by
  obtain ⟨inner, below, there⟩ := get?_put_append h
  obtain ⟨ms, child, members, written, rfl⟩ := put_key_ok below
  cases written
  rw [there, membersOf_of_membersFor members]

theorem filler_append_cons (p q : List Step) (s : Step) : filler (p ++ s :: q) = .object [] := by
  cases p <;> rfl

/-- A write behind a member comes to a write of what it makes of that member. -/
theorem put_behind_key {pre tail : List Step} {k : Text} {v inner : Json} {old : Option Json}
    (h : put tail v (old.bind (get? (pre ++ [.key k]))) = .ok inner) :
    put (pre ++ .key k :: tail) v old = put (pre ++ [.key k]) inner old := by
  induction pre generalizing old with
  | nil =>
    simp only [List.nil_append] at h ⊢
    rw [put_key, put_key]
    cases hm : membersFor old with
    | error b => rfl
    | ok ms =>
      have here : put tail v (Members.get? k ms) = .ok inner := by
        simpa [bind_get?_cons, bind_child?_key hm, get?] using h
      have whole : put [] inner (Members.get? k ms) = .ok inner := rfl
      simp only [Except.bind, putMember_ok here, putMember_ok whole]
  | cons s pre ih =>
    rw [List.cons_append, bind_get?_cons] at h
    rw [List.cons_append, List.cons_append]
    cases s with
    | key j =>
      rw [put_key, put_key]
      cases hm : membersFor old with
      | error b => rfl
      | ok ms =>
        rw [bind_child?_key hm] at h
        simp only [Except.bind, putMember, ih h]
    | index i =>
      rw [put_index, put_index]
      cases hx : itemsFor old with
      | error b => rfl
      | ok xs =>
        rw [bind_child?_index hx] at h
        simp only [Except.bind, putItem, ih h, filler_append_cons]

theorem put_of_get? {steps : List Step} {w t : Json} (h : t.get? steps = some w) :
    put steps w (some t) = .ok t := by
  induction steps generalizing t with
  | nil =>
    cases h
    rfl
  | cons s rest ih =>
    obtain ⟨child, hc, below⟩ := Option.bind_eq_some_iff.1 h
    cases s <;> cases t <;> simp only [child?, reduceCtorEq] at hc
    next k ms =>
      have same : put rest w (Members.get? k ms) = .ok child := by rw [hc, ih below]
      rw [put_key_object, putMember_ok same, Members.set_of_get? hc]
      rfl
    next i xs =>
      have same : put rest w xs[i]? = .ok child := by rw [hc, ih below]
      rw [put_index_array, putItem_ok same, setItem_of_getElem? _ hc]
      rfl

theorem exists_put_of_get? {steps : List Step} {w t : Json} (h : t.get? steps = some w)
    (v : Json) : ∃ new, put steps v (some t) = .ok new := by
  cases hp : put steps v (some t) with
  | ok new => exact ⟨new, rfl⟩
  | error b =>
    have blocked : put steps w (some t) = .error b := put_error_iff.2 (put_error_iff.1 hp)
    rw [put_of_get? h] at blocked
    cases blocked

/-! ## What a write builds on its way -/

/-- Two values of which the second differs, beside a place and what is below it, at most by what has
to be there before the place can be reached: elements of an array on the way before the one that is
passed, which are empty objects, and one key at the end of an object on the way. -/
structure WayBuilt (p : List Step) (v w : Json) : Prop where
  kept : ∀ q x, Independent p q → v.get? q = some x → w.get? q = some x
  added : ∀ q x, Independent p q → v.get? q = none → w.get? q = some x →
    ∃ pre i rest j, p = pre ++ .index i :: rest ∧ q = pre ++ [.index j] ∧
      (itemsOf (v.get? pre)).length ≤ j ∧ j < i ∧ x = .object []
  objects : ∀ pre ms, pre <+: p → pre ≠ p → v.get? pre = some (.object ms) →
    ∃ ns, w.get? pre = some (.object ns)
  keys : ∀ pre ns, pre <+: p → pre ≠ p → w.get? pre = some (.object ns) →
    ∃ k, pre ++ [.key k] <+: p ∧
      Members.keys ns = withKey k (Members.keys (membersOf (v.get? pre)))

theorem wayBuilt_put {parent : List Step} {k : Text} {x v w : Json}
    (h : put (parent ++ [.key k]) x (some v) = .ok w) : WayBuilt (parent ++ [.key k]) v w where
  kept _ _ free stored := get?_put_of_independent h free stored
  added q y free absent stored := by
    obtain ⟨pre, i, rest, j, way, rfl, behind, before, rfl⟩ :=
      filler_of_get?_put h free absent stored
    refine ⟨pre, i, rest, j, way, rfl, behind, before, ?_⟩
    -- the way ends in a key and not in the index
    cases rest with
    | nil => simpa using congrArg List.getLast? way
    | cons s rest => rfl
  objects _ _ way proper stored := object_put h way proper stored
  keys _ _ way proper stored := keys_put h way proper stored

/-! ## Writes over what is stored -/

/-- Two values that differ at most in what stands at a place or below it: every place beside it
holds the same or nothing in both, and the objects on the way to it have the same keys in the same
order. -/
structure SameBut (p : List Step) (v w : Json) : Prop where
  beside : ∀ q, Independent p q → w.get? q = v.get? q
  keys : ∀ pre, pre <+: p → pre ≠ p →
    Members.keys (membersOf (w.get? pre)) = Members.keys (membersOf (v.get? pre))

/-- What a place leads through is there, and its next step fits it. -/
theorem exists_child_of_get? {pre rest : List Step} {s : Step} {t w : Json}
    (h : t.get? (pre ++ s :: rest) = some w) :
    ∃ outer child, t.get? pre = some outer ∧ outer.child? s = some child := by
  rw [get?_append] at h
  obtain ⟨outer, here, below⟩ := Option.bind_eq_some_iff.1 h
  obtain ⟨child, hc, _⟩ := Option.bind_eq_some_iff.1 below
  exact ⟨outer, child, here, hc⟩

theorem of_child?_key {t w : Json} {k : Text} (h : t.child? (.key k) = some w) :
    ∃ ms, t = .object ms ∧ Members.get? k ms = some w := by
  cases t with
  | object ms => exact ⟨ms, rfl, h⟩
  | atom a => cases h
  | array xs => cases h

theorem of_child?_index {t w : Json} {i : Nat} (h : t.child? (.index i) = some w) :
    ∃ xs, t = .array xs ∧ xs[i]? = some w := by
  cases t with
  | array xs => exact ⟨xs, rfl, h⟩
  | atom a => cases h
  | object ms => cases h

theorem get?_put_beside {p q : List Step} {v w t new : Json} (stored : t.get? p = some w)
    (h : put p v (some t) = .ok new) (free : Independent p q) : new.get? q = t.get? q := by
  cases before : t.get? q with
  | some x => exact get?_put_of_independent h free before
  | none =>
    refine Option.eq_none_iff_forall_ne_some.2 fun x after => ?_
    -- a new element would lie behind the array and before the element that is stored in it
    obtain ⟨pre, i, rest, j, rfl, rfl, behind, ahead, _⟩ := filler_of_get?_put h free before after
    obtain ⟨outer, child, here, hc⟩ := exists_child_of_get? stored
    obtain ⟨xs, rfl, hi⟩ := of_child?_index hc
    have within := (List.getElem?_eq_some_iff.1 hi).1
    rw [Option.bind_some, here, itemsOf] at behind
    omega

theorem keys_put_above {pre rest : List Step} {s : Step} {v w t new : Json}
    (stored : t.get? (pre ++ s :: rest) = some w)
    (h : put (pre ++ s :: rest) v (some t) = .ok new) :
    Members.keys (membersOf (new.get? pre)) = Members.keys (membersOf (t.get? pre)) := by
  obtain ⟨outer, child, here, hc⟩ := exists_child_of_get? stored
  have way : pre <+: pre ++ s :: rest := List.prefix_append _ _
  have proper : pre ≠ pre ++ s :: rest := by simp
  cases s with
  | key k =>
    obtain ⟨ms, rfl, hk⟩ := of_child?_key hc
    obtain ⟨ns, hn⟩ := object_put h way proper here
    obtain ⟨j, next, keys⟩ := keys_put h way proper hn
    obtain rfl : j = k := by simpa using next
    rw [Option.bind_some, here] at keys
    rw [here, hn]
    refine keys.trans (if_pos ?_)
    by_cases old : j ∈ Members.keys ms
    · exact old
    · rw [Members.get?_eq_none_iff.2 old] at hk
      cases hk
  | index i =>
    obtain ⟨xs, rfl, _⟩ := of_child?_index hc
    rw [here]
    cases hn : new.get? pre with
    | none => rfl
    | some x =>
      cases x with
      | atom a => rfl
      | array ys => rfl
      | object ns =>
        obtain ⟨j, next, _⟩ := keys_put h way proper hn
        simp at next

/-- A write over what is stored adds nothing beside it. -/
theorem sameBut_put {p : List Step} {v w t new : Json} (stored : t.get? p = some w)
    (h : put p v (some t) = .ok new) : SameBut p t new where
  beside _ free := get?_put_beside stored h free
  keys pre way proper := by
    obtain ⟨rest, rfl⟩ := way
    cases rest with
    | nil => exact absurd (List.append_nil pre).symm proper
    | cons s rest => exact keys_put_above stored h

/-- What is built on the way to a member is all that is built if the object is then replaced. -/
theorem wayBuilt_above {parent : List Step} {k : Text} {x y v mid w : Json}
    (first : put (parent ++ [.key k]) x (some v) = .ok mid)
    (second : put parent y (some mid) = .ok w) : WayBuilt parent v w := by
  have built := wayBuilt_put first
  have here := get?_put_key first
  have same := sameBut_put here second
  have below : ∀ q, Independent parent q → Independent (parent ++ [.key k]) q := by
    intro q free
    constructor
    · intro way
      exact free.1 ((List.prefix_append _ _).trans way)
    · intro way
      rcases List.prefix_concat_iff.1 way with rfl | shorter
      · exact free.1 (List.prefix_append _ _)
      · exact free.2 shorter
  have longer : ∀ pre, pre <+: parent → pre <+: parent ++ [.key k] := by
    intro pre way
    exact way.trans (List.prefix_append _ _)
  have shorter : ∀ pre, pre <+: parent → pre ≠ parent ++ [.key k] := by
    rintro pre way rfl
    have length := way.length_le
    rw [List.length_append, List.length_singleton] at length
    omega
  constructor
  · intro q z free stored
    rw [same.beside q free]
    exact built.kept q z (below q free) stored
  · intro q z free absent stored
    rw [same.beside q free] at stored
    obtain ⟨pre, i, rest, j, way, rfl, behind, before, rfl⟩ :=
      built.added q z (below q free) absent stored
    rcases List.eq_nil_or_concat rest with rfl | ⟨init, s, rfl⟩
    · simpa using congrArg List.getLast? way
    · rw [List.concat_eq_append, ← List.cons_append, ← List.append_assoc] at way
      obtain ⟨rfl, _⟩ := List.append_inj' way rfl
      exact ⟨pre, i, init, j, rfl, rfl, behind, before, rfl⟩
  · intro pre ms way proper stored
    obtain ⟨ns, between⟩ := built.objects pre ms (longer pre way) (shorter pre way) stored
    exact object_put second way proper between
  · intro pre ns way proper stored
    obtain ⟨j, next, keys⟩ := keys_put second way proper stored
    obtain ⟨rest, rfl⟩ := next
    rw [List.append_assoc] at here
    obtain ⟨outer, child, between, hc⟩ := exists_child_of_get? here
    obtain ⟨ms, rfl, _⟩ := of_child?_key hc
    obtain ⟨i, next, keys'⟩ := built.keys pre ms (longer pre way) (shorter pre way) between
    obtain rfl : i = j := by simpa [List.append_assoc] using next
    refine ⟨i, List.prefix_append _ _, ?_⟩
    have unchanged := same.keys pre way proper
    rw [stored, between] at unchanged
    exact unchanged.trans keys'

end Json
end Intake
