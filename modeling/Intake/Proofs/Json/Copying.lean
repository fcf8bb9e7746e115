import Intake.Proofs.Json.Merge

set_option autoImplicit false

/-!
# Copying, and what lasts through a merge

Members whose keys are all new are copied as they stand, in their order (`mergeMembers_of_new`).
`LastsIn` compares what two values hold place by place and forgets the order of keys. A value lasts
in whatever extends it (`Extends.lastsIn`), and so in every merge into it.
-/

namespace Intake

namespace Members

theorem set_of_new {k : Text} {ms : Members} (h : k ∉ keys ms) (v : Json) :
    set k v ms = ms ++ [(k, v)] := by
  induction ms with
  | nil => rfl
  | cons m ms ih =>
    have apart : m.1 ≠ k := fun e => h (e ▸ List.mem_cons_self)
    have later : k ∉ keys ms := fun hk => h (List.mem_cons_of_mem _ hk)
    rw [set, if_neg apart, ih later, List.cons_append]

theorem all_get?_iff {k : Text} {p : Json → Bool} {ms : Members} (nodup : (keys ms).Nodup) :
    (get? k ms).all p = true ↔ ∀ m ∈ ms, m.1 = k → p m.2 = true := by
  constructor
  · rintro h m mem rfl
    rwa [get?_of_mem nodup mem] at h
  · intro h
    cases hv : get? k ms with
    | none => rfl
    | some v => exact h _ (mem_of_get? hv) rfl

theorem exists_get?_of_prefix {ms ns : Members} (h : keys ms <+: keys ns) {k : Text} {v : Json}
    (hv : get? k ms = some v) : ∃ w, get? k ns = some w := by
  have there : k ∈ keys ms := List.mem_map.2 ⟨(k, v), mem_of_get? hv, rfl⟩
  cases hw : get? k ns with
  | some w => exact ⟨w, rfl⟩
  | none => exact absurd (h.subset there) (get?_eq_none_iff.1 hw)

end Members

namespace Json

theorem mergeMembers_of_new {kept ms : Members} (nodup : (Members.keys (kept ++ ms)).Nodup) :
    mergeMembers kept ms = (kept ++ ms, []) := by
  induction ms generalizing kept with
  | nil => rw [mergeMembers, List.append_nil]
  | cons m ms ih =>
    have moved : kept ++ m :: ms = (kept ++ [m]) ++ ms := by simp
    have absent : m.1 ∉ Members.keys kept := by
      intro h
      rw [Members.keys, List.map_append, List.nodup_append] at nodup
      exact nodup.2.2 m.1 h m.1 List.mem_cons_self rfl
    have unstored : Members.get? m.1 kept = none := Members.get?_eq_none_iff.2 absent
    rw [moved] at nodup ⊢
    simp only [mergeMembers_cons, mergedMember, memberConflicts, unstored,
      Members.set_of_new absent, ih nodup, List.nil_append]

/-- An object that is merged into an empty one is copied. -/
theorem merge_emptyObject {ms : Members} (h : (object ms).WellKeyed) :
    merge (.object []) (.object ms) = (.object ms, []) := by
  have nodup : (Members.keys ([] ++ ms)).Nodup := h.nodup_keys
  simp only [merge, mergeMembers_of_new nodup, List.nil_append]

/-! ## What lasts -/

/-- What may become of a value in place: a scalar stays as it is and an array may only grow at its
end. Of an object nothing is said but that it stays one. -/
inductive LastsAs : Json → Json → Prop where
  | atom (a : Atom) : LastsAs (.atom a) (.atom a)
  | array {xs ys : List Json} : xs <+: ys → LastsAs (.array xs) (.array ys)
  | object (ms ns : Members) : LastsAs (.object ms) (.object ns)

theorem LastsAs.refl (v : Json) : v.LastsAs v := by
  cases v with
  | atom a => exact .atom a
  | array xs => exact .array List.prefix_rfl
  | object ms => exact .object ms ms

theorem LastsAs.trans {u v w : Json} (first : u.LastsAs v) (second : v.LastsAs w) :
    u.LastsAs w := by
  cases first with
  | atom a => exact second
  | array begins =>
    cases second with
    | array continues => exact .array (begins.trans continues)
  | object ms ns =>
    cases second with
    | object _ os => exact .object ms os

theorem Extends.lastsAs {v w : Json} (h : v.Extends w) : v.LastsAs w := by
  cases h with
  | atom a => exact .atom a
  | array begins => exact .array begins
  | object _ _ => exact .object _ _

/-- Everything that `v` holds lasts at its place in `w`. -/
def LastsIn (v w : Json) : Prop :=
  ∀ steps u, v.get? steps = some u → ∃ x, w.get? steps = some x ∧ u.LastsAs x

theorem LastsIn.trans {u v w : Json} (first : u.LastsIn v) (second : v.LastsIn w) :
    u.LastsIn w := by
  intro steps a ha
  obtain ⟨b, hb, lasts⟩ := first steps a ha
  obtain ⟨c, hc, stays⟩ := second steps b hb
  exact ⟨c, hc, lasts.trans stays⟩

theorem Extends.lastsIn {v w : Json} (h : v.Extends w) : v.LastsIn w := by
  intro steps
  induction steps generalizing v w with
  | nil =>
    intro u hu
    cases hu
    exact ⟨w, rfl, h.lastsAs⟩
  | cons s rest ih =>
    intro u hu
    obtain ⟨child, hc, below⟩ := Option.bind_eq_some_iff.1 hu
    cases h with
    | atom a => cases s <;> cases hc
    | @array xs ys begins =>
      cases s with
      | key k => cases hc
      | index i =>
        -- an element of the shorter array is the same one of the longer array
        obtain ⟨more, rfl⟩ := begins
        have inside : i < xs.length := (List.getElem?_eq_some_iff.1 hc).1
        have same : (xs ++ more)[i]? = some child := (List.getElem?_append_left inside).trans hc
        exact ⟨u, Option.bind_eq_some_iff.2 ⟨child, same, below⟩, .refl u⟩
    | @object ms ns keys values =>
      cases s with
      | index i => cases hc
      | key k =>
        obtain ⟨grown, hg⟩ := Members.exists_get?_of_prefix keys hc
        obtain ⟨x, hx, lasts⟩ := ih (values k child grown hc hg) u below
        exact ⟨x, Option.bind_eq_some_iff.2 ⟨grown, hg, hx⟩, lasts⟩

/-- An object lasts in one that has the same values under its keys. -/
theorem lastsIn_of_members {ms ns : Members}
    (same : ∀ k v, Members.get? k ms = some v → Members.get? k ns = some v) :
    (object ms).LastsIn (.object ns) := by
  intro steps u hu
  cases steps with
  | nil =>
    cases hu
    exact ⟨.object ns, rfl, .object ms ns⟩
  | cons s rest =>
    obtain ⟨child, hc, below⟩ := Option.bind_eq_some_iff.1 hu
    cases s with
    | index i => cases hc
    | key k => exact ⟨u, Option.bind_eq_some_iff.2 ⟨child, same k child hc, below⟩, .refl u⟩

end Json
end Intake
