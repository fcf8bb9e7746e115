import Intake.Proofs.Json.Put

set_option autoImplicit false

/-!
# Values after an erasure

An erasure changes only the child on its way (`child?_erase_cons`). So an erased member is gone with
everything below it, every place independent of it is as before, and erasing what is not there
changes nothing. What an erasure leaves of the container is said by `MemberErased` and, as elements
behind an erased one move up, by `ElementErased`.
-/

namespace Intake

namespace Members

theorem get?_erase_self (k : Text) (ms : Members) : get? k (erase k ms) = none := by
  rw [get?_eq_none_iff, keys_erase]
  intro mem
  exact of_decide_eq_true (List.mem_filter.1 mem).2 rfl

theorem get?_erase_of_ne {j k : Text} (h : j ≠ k) (ms : Members) :
    get? j (erase k ms) = get? j ms := by
  induction ms with
  | nil => rfl
  | cons m ms ih =>
    by_cases same : m.1 = k
    · have other : m.1 ≠ j := fun e => h (e.symm.trans same)
      rw [get?_cons, if_neg other, ← ih, erase, List.filter_cons_of_neg (by simp [same])]
      rfl
    · have kept : erase k (m :: ms) = m :: erase k ms := List.filter_cons_of_pos (by simp [same])
      rw [kept, get?_cons, get?_cons, ih]

theorem get?_modify_self (k : Text) (f : Json → Json) (ms : Members) :
    get? k (modify k f ms) = (get? k ms).map f := by
  induction ms with
  | nil => rfl
  | cons m ms ih =>
    rw [modify, List.map_cons, get?_cons, get?_cons]
    by_cases same : m.1 = k
    · simp [same]
    · simp only [if_neg same]
      exact ih

theorem get?_modify_of_ne {j k : Text} (h : j ≠ k) (f : Json → Json) (ms : Members) :
    get? j (modify k f ms) = get? j ms := by
  induction ms with
  | nil => rfl
  | cons m ms ih =>
    rw [modify, List.map_cons, get?_cons, get?_cons]
    by_cases same : m.1 = k
    · have other : m.1 ≠ j := fun e => h (e.symm.trans same)
      simp only [if_pos same, if_neg other]
      exact ih
    · simp only [if_neg same]
      exact congrArg _ ih

theorem erase_of_new {k : Text} {ms : Members} (h : k ∉ keys ms) : erase k ms = ms := by
  refine List.filter_eq_self.2 fun m mem => decide_eq_true ?_
  rintro rfl
  exact h (List.mem_map_of_mem mem)

theorem erase_set (k : Text) (v : Json) (ms : Members) : erase k (set k v ms) = erase k ms := by
  induction ms with
  | nil => simp [set, erase]
  | cons m ms ih =>
    unfold erase at ih ⊢
    by_cases here : m.1 = k
    · simp [set, here]
    · simpa [set, here] using ih

theorem modify_of_unchanged {k : Text} {f : Json → Json} {ms : Members} (nodup : (keys ms).Nodup)
    (h : ∀ w, get? k ms = some w → f w = w) : modify k f ms = ms := by
  have same : ∀ m ∈ ms, (if m.1 = k then (m.1, f m.2) else m) = m := by
    intro m mem
    split
    · next here => rw [h m.2 (here ▸ get?_of_mem nodup mem)]
    · rfl
  exact (List.map_congr_left same).trans (List.map_id ms)

/-- Where no key stands twice, one member is changed. -/
theorem modify_eq_set {k : Text} {f : Json → Json} {ms : Members} {w : Json}
    (nodup : (keys ms).Nodup) (h : get? k ms = some w) : modify k f ms = set k (f w) ms := by
  induction ms with
  | nil => cases h
  | cons m ms ih =>
    obtain ⟨fresh, rest⟩ := List.nodup_cons.1 nodup
    rw [get?_cons] at h
    by_cases here : m.1 = k
    · rw [if_pos here] at h
      cases h
      have others : modify k f ms = ms := modify_of_unchanged rest fun w hw => by
        rw [get?_eq_none_iff.2 (here ▸ fresh)] at hw
        cases hw
      rw [modify, List.map_cons, if_pos here, set, if_pos here, ← modify, others, here]
    · rw [if_neg here] at h
      rw [modify, List.map_cons, if_neg here, set, if_neg here, ← modify, ih rest h]

end Members

namespace Json

/-- An erasure that goes on below a child changes that child and no other. -/
theorem child?_erase_cons {s : Step} {rest : List Step} (more : rest ≠ []) (v : Json) :
    (erase (s :: rest) v).child? s = (v.child? s).map (erase rest) := by
  cases s with
  | key k =>
    cases v with
    | object ms =>
      rw [erase, if_neg more]
      exact Members.get?_modify_self k _ ms
    | _ => rfl
  | index i =>
    cases v with
    | array xs =>
      rw [erase, if_neg more]
      exact List.getElem?_modify_eq _ i xs
    | _ => rfl

/-- Behind an erased element the others move up, so this is not said of elements. -/
theorem child?_erase_of_ne {s t : Step} {rest : List Step} (ne : t ≠ s)
    (keyed : rest = [] → ∃ k, s = .key k) (v : Json) :
    (erase (s :: rest) v).child? t = v.child? t := by
  cases s with
  | key k =>
    cases v with
    | object ms =>
      cases t with
      | index j => rfl
      | key j =>
        have other : j ≠ k := fun e => ne (e ▸ rfl)
        rw [erase]
        split
        · exact Members.get?_erase_of_ne other ms
        · exact Members.get?_modify_of_ne other _ ms
    | _ => rfl
  | index i =>
    have more : rest ≠ [] := by
      intro none
      obtain ⟨k, same⟩ := keyed none
      cases same
    cases v with
    | array xs =>
      cases t with
      | key j => rfl
      | index j =>
        have other : i ≠ j := fun e => ne (e ▸ rfl)
        rw [erase, if_neg more]
        exact List.getElem?_modify_ne _ xs other
    | _ => rfl

/-- An erased member is gone, with everything below it. -/
theorem get?_erase_below (pre : List Step) (k : Text) (below : List Step) (v : Json) :
    get? (pre ++ .key k :: below) (erase (pre ++ [.key k]) v) = none := by
  induction pre generalizing v with
  | nil =>
    cases v with
    | object ms =>
      have gone : (erase [.key k] (.object ms)).child? (.key k) = none :=
        Members.get?_erase_self k ms
      rw [List.nil_append, List.nil_append, get?, gone]
      rfl
    | _ => rfl
  | cons s pre ih =>
    rw [List.cons_append, List.cons_append, get?, child?_erase_cons (by simp)]
    cases v.child? s with
    | none => rfl
    | some child => exact ih child

theorem get?_erase_of_independent {pre q : List Step} {k : Text}
    (free : Independent (pre ++ [.key k]) q) (v : Json) :
    get? q (erase (pre ++ [.key k]) v) = get? q v := by
  induction pre generalizing q v with
  | nil =>
    cases q with
    | nil => exact absurd (List.nil_prefix) free.2
    | cons t q =>
      have ne : t ≠ .key k := by
        rintro rfl
        exact free.1 ⟨q, rfl⟩
      rw [List.nil_append, get?, get?, child?_erase_of_ne ne fun _ => ⟨k, rfl⟩]
  | cons s pre ih =>
    cases q with
    | nil => exact absurd (List.nil_prefix) free.2
    | cons t q =>
      by_cases same : t = s
      · subst same
        rw [List.cons_append, get?, get?, child?_erase_cons (by simp)]
        cases v.child? t with
        | none => rfl
        | some child => exact ih free.of_cons child
      · rw [List.cons_append, get?, get?, child?_erase_of_ne same (by simp)]

theorem modify_item_of_unchanged {i : Nat} {f : Json → Json} {xs : List Json}
    (h : ∀ w, xs[i]? = some w → f w = w) : xs.modify i f = xs := by
  refine List.ext_getElem? fun j => ?_
  rw [List.getElem?_modify]
  cases hw : xs[j]? with
  | none => rfl
  | some w =>
    by_cases here : i = j
    · subst here
      simp [h w hw]
    · simp [here]

/-- Erasing what is not there changes nothing. -/
theorem erase_of_absent {steps : List Step} {v : Json} (wellKeyed : v.WellKeyed)
    (h : get? steps v = none) : erase steps v = v := by
  induction steps generalizing v with
  | nil => cases h
  | cons s rest ih =>
    have below : ∀ w, v.child? s = some w → get? rest w = none := by
      intro w hw
      simpa [get?, hw] using h
    have absent : rest = [] → v.child? s = none := by
      rintro rfl
      refine Option.eq_none_iff_forall_ne_some.2 fun w hw => ?_
      cases below w hw
    cases s with
    | key k =>
      cases v with
      | object ms =>
        rw [erase]
        split
        · next last => rw [Members.erase_of_new (Members.get?_eq_none_iff.1 (absent last))]
        · have unchanged := Members.modify_of_unchanged wellKeyed.nodup_keys fun w hw =>
            ih (wellKeyed.get? hw) (below w hw)
          rw [unchanged]
      | _ => rfl
    | index i =>
      cases v with
      | array xs =>
        rw [erase]
        split
        · next last => rw [List.eraseIdx_of_length_le (List.getElem?_eq_none_iff.1 (absent last))]
        · have unchanged := modify_item_of_unchanged fun w hw =>
            ih (wellKeyed.items w (List.mem_of_getElem? hw)) (below w hw)
          rw [unchanged]
      | _ => rfl

theorem modify_item_eq_set {i : Nat} {f : Json → Json} {xs : List Json} {w : Json}
    (h : xs[i]? = some w) : xs.modify i f = xs.set i (f w) := by
  obtain ⟨within, rfl⟩ := List.getElem?_eq_some_iff.1 h
  refine List.ext_getElem? fun j => ?_
  rw [List.getElem?_modify, List.getElem?_set]
  by_cases here : i = j
  · subst here
    simp [within]
  · simp [here]

/-- An erasure below a stored value leaves of it what an erasure in the value itself leaves. -/
theorem put_erase {steps below : List Step} {v w : Json} (more : below ≠ [])
    (wellKeyed : v.WellKeyed) (h : v.get? steps = some w) :
    put steps (erase below w) (some v) = .ok (erase (steps ++ below) v) := by
  induction steps generalizing v with
  | nil =>
    cases h
    rfl
  | cons s rest ih =>
    obtain ⟨child, hc, deeper⟩ := Option.bind_eq_some_iff.1 h
    have further : rest ++ below ≠ [] := by simp [more]
    cases s with
    | key k =>
      obtain ⟨ms, rfl, hk⟩ := of_child?_key hc
      have inner : put rest (erase below w) (Members.get? k ms) =
          .ok (erase (rest ++ below) child) := by
        rw [hk]
        exact ih (wellKeyed.get? hk) deeper
      rw [put_key_object, putMember_ok inner, List.cons_append, erase, if_neg further,
        Members.modify_eq_set wellKeyed.nodup_keys hk]
      rfl
    | index i =>
      obtain ⟨xs, rfl, hi⟩ := of_child?_index hc
      have inner : put rest (erase below w) xs[i]? = .ok (erase (rest ++ below) child) := by
        rw [hi]
        exact ih (wellKeyed.items child (List.mem_of_getElem? hi)) deeper
      have within := (List.getElem?_eq_some_iff.1 hi).1
      rw [put_index_array, putItem_ok inner, setItem, if_pos within, List.cons_append, erase,
        if_neg further, modify_item_eq_set hi]
      rfl

/-! ## Members that have been written -/

/-- Erasing a member that has been written comes to a write of the object without it. -/
theorem put_erased {pre : List Step} {k : Text} {v mid : Json} {old : Option Json}
    (wellKeyed : mid.WellKeyed) (h : put (pre ++ [.key k]) v old = .ok mid) :
    put pre (.object (Members.erase k (membersOf (old.bind (get? pre))))) (some mid) =
      .ok (erase (pre ++ [.key k]) mid) := by
  have left := put_erase (List.cons_ne_nil (.key k) []) wellKeyed (get?_put_key h)
  rw [erase, if_pos rfl, Members.erase_set] at left
  exact left

/-- A member that has been written into an object is erased as the one before it. -/
theorem erase_put {pre : List Step} {k : Text} {v t mid : Json} {ms : Members}
    (before : t.WellKeyed) (after : mid.WellKeyed) (here : t.get? pre = some (.object ms))
    (h : put (pre ++ [.key k]) v (some t) = .ok mid) :
    erase (pre ++ [.key k]) mid = erase (pre ++ [.key k]) t := by
  have whole : put pre (.object (Members.set k v ms)) (some t) = .ok mid :=
    (put_append here rfl).symm.trans h
  have erased := put_erased after h
  have direct := put_erase (List.cons_ne_nil (.key k) []) before here
  rw [erase, if_pos rfl] at direct
  rw [put_put whole, Option.bind_some, here, membersOf, direct] at erased
  exact (Except.ok.inj erased).symm

/-! ## What is left of a container -/

/-- The container that a child stands in is left without it, and nothing beside it changes. -/
theorem erase_child {pre : List Step} {s : Step} {v w : Json} (wellKeyed : v.WellKeyed)
    (h : v.get? (pre ++ [s]) = some w) :
    ∃ outer, v.get? pre = some outer ∧ outer.child? s = some w ∧
      (erase (pre ++ [s]) v).get? pre = some (erase [s] outer) ∧
      SameBut pre v (erase (pre ++ [s]) v) := by
  rw [get?_append] at h
  obtain ⟨outer, here, below⟩ := Option.bind_eq_some_iff.1 h
  have child : outer.child? s = some w := by simpa [get?] using below
  have written := put_erase (List.cons_ne_nil s []) wellKeyed here
  exact ⟨outer, here, child, get?_put_self written, sameBut_put here written⟩

/-- `w` is `v` without the member under `k` of the object at a place. -/
structure MemberErased (pre : List Step) (k : Text) (v w : Json) : Prop where
  gone : ∀ below, w.get? (pre ++ .key k :: below) = none
  beside : ∀ q, Independent (pre ++ [.key k]) q → w.get? q = v.get? q
  keys : ∃ ms ns, v.get? pre = some (.object ms) ∧ w.get? pre = some (.object ns) ∧
    Members.keys ns = (Members.keys ms).filter (· ≠ k)
  around : SameBut pre v w

/-- `w` is `v` without one element of the array at a place: those behind it have moved up. -/
structure ElementErased (pre : List Step) (i : Nat) (v w : Json) : Prop where
  items : ∃ xs ys, v.get? pre = some (.array xs) ∧ w.get? pre = some (.array ys) ∧
    ys.length + 1 = xs.length ∧ (∀ j < i, ys[j]? = xs[j]?) ∧ ∀ j, i ≤ j → ys[j]? = xs[j + 1]?
  around : SameBut pre v w

theorem memberErased_erase {pre : List Step} {k : Text} {v w : Json} (wellKeyed : v.WellKeyed)
    (h : v.get? (pre ++ [.key k]) = some w) :
    MemberErased pre k v (erase (pre ++ [.key k]) v) := by
  obtain ⟨outer, here, child, left, around⟩ := erase_child wellKeyed h
  obtain ⟨ms, rfl, _⟩ := of_child?_key child
  constructor
  · intro below
    exact get?_erase_below pre k below v
  · intro q free
    exact get?_erase_of_independent free v
  · exact ⟨ms, Members.erase k ms, here, by simpa [erase] using left, Members.keys_erase k ms⟩
  · exact around

theorem elementErased_erase {pre : List Step} {i : Nat} {v w : Json} (wellKeyed : v.WellKeyed)
    (h : v.get? (pre ++ [.index i]) = some w) :
    ElementErased pre i v (erase (pre ++ [.index i]) v) := by
  obtain ⟨outer, here, child, left, around⟩ := erase_child wellKeyed h
  obtain ⟨xs, rfl, item⟩ := of_child?_index child
  have within := (List.getElem?_eq_some_iff.1 item).1
  refine ⟨⟨xs, xs.eraseIdx i, here, by simpa [erase] using left, ?_, ?_, ?_⟩, around⟩
  · rw [List.length_eraseIdx_of_lt within]
    omega
  · intro j before
    exact List.getElem?_eraseIdx_of_lt before
  · intro j behind
    exact List.getElem?_eraseIdx_of_ge behind

end Json
end Intake
