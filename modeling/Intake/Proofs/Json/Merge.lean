import Mathlib.Data.List.Nodup
import Intake.Json.Place

set_option autoImplicit false

/-!
# What a merge comes to

A merge of one value into another takes nothing but the two values: absent members are copied,
objects are merged member by member, arrays are joined end to end, and anything else that differs
stays as it is and counts as a conflict. An object that repeats no key is merged member by member:
`get?_mergeMembers` and `conflicts_mergeMembers` say what becomes of each member by itself. From
there on everything is by recursion along a path of keys or over the incoming value: a merge only
extends what it goes into, it carries over what does not clash, it invents nothing, and it reports
the clashes in document order.
-/

namespace Intake

abbrev KeyPath := List Text

namespace KeyPath

def steps (q : KeyPath) : List Step := q.map .key

end KeyPath

namespace Json

mutual

/-- The value after `incoming` has been merged into `old`, and the conflicts below it. -/
def merge (old : Json) : Json → Json × List KeyPath
  | .object ms =>
    match old with
    | .object kept =>
      let r := mergeMembers kept ms
      (.object r.1, r.2)
    | _ => (old, [[]])
  | .array xs =>
    match old with
    | .array kept => (.array (kept ++ xs), [])
    | _ => (old, [[]])
  | .atom a =>
    match old with
    | .atom b => (old, if b.agrees a then [] else [[]])
    | _ => (old, [[]])

def mergeMembers : Members → List (Text × Json) → Members × List KeyPath
  | kept, [] => (kept, [])
  | kept, (k, v) :: ms =>
    match Members.get? k kept with
    | none => mergeMembers (Members.set k v kept) ms
    | some old =>
      let r := merge old v
      let s := mergeMembers (Members.set k r.1 kept) ms
      (s.1, r.2.map (k :: ·) ++ s.2)

end

mutual

theorem wellKeyed_merge : (old new : Json) → old.WellKeyed → new.WellKeyed →
    (merge old new).1.WellKeyed
  | old, .object ms => by
    intro ho hn
    cases old <;> simp only [merge]
    case object kept => exact wellKeyed_mergeMembers kept ms ho hn.members
    all_goals exact ho
  | old, .array xs => by
    intro ho hn
    cases old <;> simp only [merge]
    case array kept =>
      exact .array fun v hv => (List.mem_append.1 hv).elim (ho.items v) (hn.items v)
    all_goals exact ho
  | old, .atom a => by
    intro ho _
    cases old <;> simp only [merge] <;> exact ho

theorem wellKeyed_mergeMembers : (kept : Members) → (ms : List (Text × Json)) →
    (Json.object kept).WellKeyed → (∀ m ∈ ms, m.2.WellKeyed) →
    (Json.object (mergeMembers kept ms).1).WellKeyed
  | kept, [] => by
    intro hk _
    rw [mergeMembers]
    exact hk
  | kept, (k, v) :: ms => by
    intro hk hm
    have hv : v.WellKeyed := hm (k, v) List.mem_cons_self
    have hr : ∀ m ∈ ms, m.2.WellKeyed := fun m h => hm m (List.mem_cons_of_mem _ h)
    rw [mergeMembers]
    split
    · exact wellKeyed_mergeMembers _ ms (hk.set hv) hr
    · next old ho =>
      exact wellKeyed_mergeMembers _ ms (hk.set (wellKeyed_merge old v (hk.get? ho) hv)) hr

end

def at? (q : KeyPath) (v : Json) : Option Json := v.get? q.steps

@[simp] theorem at?_nil (v : Json) : v.at? [] = some v := rfl

@[simp] theorem at?_cons_object (k : Text) (q : KeyPath) (ms : Members) :
    (object ms).at? (k :: q) = (Members.get? k ms).bind (at? q) := rfl

@[simp] theorem at?_cons_array (k : Text) (q : KeyPath) (xs : List Json) :
    (array xs).at? (k :: q) = none := rfl

@[simp] theorem at?_cons_atom (k : Text) (q : KeyPath) (a : Atom) :
    (atom a).at? (k :: q) = none := rfl

/-- Induction on what objects hold. A merge does not look into arrays. -/
theorem WellKeyed.inward {motive : (v : Json) → v.WellKeyed → Prop}
    (step : ∀ (v : Json) (h : v.WellKeyed),
      (∀ ms (e : v = .object ms) m (mem : m ∈ ms), motive m.2 ((e ▸ h).members m mem)) → motive v h)
    {v : Json} (h : v.WellKeyed) : motive v h := by
  induction h with
  | atom a => exact step _ _ fun ms e => nomatch e
  | array hx _ => exact step _ (.array hx) fun ms e => nomatch e
  | object nodup hm ih =>
    apply step _ (.object nodup hm)
    intro ms e m mem
    cases e
    exact ih m mem

/-- Values that a merge can bring together: two objects, two arrays, or scalars that agree. -/
def joins : Json → Json → Bool
  | .object _, .object _ => true
  | .array _, .array _ => true
  | .atom a, .atom b => a.agrees b
  | _, _ => false

theorem merge_cases (old new : Json) :
    (∃ kept ms, old = .object kept ∧ new = .object ms ∧
      merge old new = (.object (mergeMembers kept ms).1, (mergeMembers kept ms).2)) ∨
    (∃ kept xs, old = .array kept ∧ new = .array xs ∧
      merge old new = (.array (kept ++ xs), [])) ∨
    (∃ b a, old = .atom b ∧ new = .atom a ∧ b.agrees a = true ∧ merge old new = (old, [])) ∨
    (old.joins new = false ∧ merge old new = (old, [[]])) := by
  cases new with
  | object ms =>
    cases old with
    | object kept => exact .inl ⟨kept, ms, rfl, rfl, by rw [merge]⟩
    | _ => exact .inr (.inr (.inr ⟨rfl, by rw [merge]; simp⟩))
  | array xs =>
    cases old with
    | array kept => exact .inr (.inl ⟨kept, xs, rfl, rfl, by rw [merge]⟩)
    | _ => exact .inr (.inr (.inr ⟨rfl, by rw [merge]; simp⟩))
  | atom a =>
    cases old with
    | atom b =>
      right
      right
      rw [merge, joins]
      cases agreed : b.agrees a with
      | true => exact .inl ⟨b, a, rfl, rfl, agreed, rfl⟩
      | false => exact .inr ⟨rfl, rfl⟩
    | _ => exact .inr (.inr (.inr ⟨rfl, by rw [merge]; simp⟩))

/-! ## Members one by one -/

/-- What a merge makes of the value under a key. -/
def mergeSlot : Option Json → Option Json → Option Json
  | old, none => old
  | none, some v => some v
  | some old, some v => some (merge old v).1

/-- What could not be copied of a member. -/
def memberConflicts (kept : Members) (m : Text × Json) : List KeyPath :=
  match Members.get? m.1 kept with
  | none => []
  | some old => (merge old m.2).2.map (m.1 :: ·)

/-- The value that a member leaves under its key. -/
def mergedMember (kept : Members) (m : Text × Json) : Json :=
  match Members.get? m.1 kept with
  | none => m.2
  | some old => (merge old m.2).1

theorem mergeMembers_cons (kept : Members) (m : Text × Json) (ms : List (Text × Json)) :
    mergeMembers kept (m :: ms) =
      ((mergeMembers (Members.set m.1 (mergedMember kept m) kept) ms).1,
        memberConflicts kept m ++
          (mergeMembers (Members.set m.1 (mergedMember kept m) kept) ms).2) := by
  obtain ⟨k, v⟩ := m
  rw [mergeMembers, mergedMember, memberConflicts]
  cases Members.get? k kept <;> rfl

theorem keys_mergeMembers (kept : Members) (ms : List (Text × Json)) :
    Members.keys kept <+: Members.keys (mergeMembers kept ms).1 := by
  induction ms generalizing kept with
  | nil => simp only [mergeMembers, List.prefix_rfl]
  | cons m ms ih =>
    have step : Members.keys kept <+:
        Members.keys (Members.set m.1 (mergedMember kept m) kept) := by
      rw [Members.keys_set]
      split
      · exact List.prefix_rfl
      · exact List.prefix_append _ _
    rw [mergeMembers_cons]
    exact step.trans (ih _)

theorem get?_mergeMembers {ms : List (Text × Json)} (nodup : (Members.keys ms).Nodup)
    (kept : Members) (k : Text) : Members.get? k (mergeMembers kept ms).1 =
      mergeSlot (Members.get? k kept) (Members.get? k ms) := by
  induction ms generalizing kept with
  | nil =>
    rw [mergeMembers, Members.get?_nil]
    cases Members.get? k kept <;> rfl
  | cons m ms ih =>
    obtain ⟨fresh, rest⟩ := List.nodup_cons.1 nodup
    rw [mergeMembers_cons, ih rest]
    by_cases hk : m.1 = k
    · subst hk
      have last : Members.get? m.1 ms = none := Members.get?_eq_none_iff.2 fresh
      rw [Members.get?_set_self, last, Members.get?_cons, if_pos rfl, mergedMember]
      cases Members.get? m.1 kept <;> rfl
    · rw [Members.get?_set_of_ne (fun e => hk e.symm), Members.get?_cons, if_neg hk]

theorem conflicts_mergeMembers {ms : List (Text × Json)} (nodup : (Members.keys ms).Nodup)
    (kept : Members) : (mergeMembers kept ms).2 = ms.flatMap (memberConflicts kept) := by
  induction ms generalizing kept with
  | nil => rw [mergeMembers]; rfl
  | cons m ms ih =>
    obtain ⟨fresh, rest⟩ := List.nodup_cons.1 nodup
    have others : ms.map (memberConflicts (Members.set m.1 (mergedMember kept m) kept)) =
        ms.map (memberConflicts kept) := by
      apply List.map_congr_left
      intro n hn
      have ne : n.1 ≠ m.1 := fun e => fresh (List.mem_map.2 ⟨n, hn, e⟩)
      rw [memberConflicts, memberConflicts, Members.get?_set_of_ne ne]
    rw [mergeMembers_cons, ih rest, List.flatMap_cons, List.flatMap_def, others, ← List.flatMap_def]

/-! ## Nothing is lost -/

/-- A value extends another if it has the same scalars, its arrays begin with the other's, and its
objects have the other's keys first, in the same order, with values that extend the other's. -/
inductive Extends : Json → Json → Prop where
  | atom (a : Atom) : Extends (.atom a) (.atom a)
  | array {xs ys : List Json} : xs <+: ys → Extends (.array xs) (.array ys)
  | object {ms ns : Members} : Members.keys ms <+: Members.keys ns →
      (∀ k v w, Members.get? k ms = some v → Members.get? k ns = some w → Extends v w) →
      Extends (.object ms) (.object ns)

theorem Extends.refl {v : Json} (h : v.WellKeyed) : Extends v v := by
  induction h with
  | atom a => exact .atom a
  | array _ _ => exact .array List.prefix_rfl
  | object _ _ ih =>
    refine .object List.prefix_rfl ?_
    intro k v w hv hw
    rw [hv] at hw
    cases hw
    exact ih _ (Members.mem_of_get? hv)

theorem extends_merge {old new : Json} (ho : old.WellKeyed) (hn : new.WellKeyed) :
    old.Extends (merge old new).1 := by
  induction hn using WellKeyed.inward generalizing old with
  | step new hn ih =>
    rcases merge_cases old new with
      ⟨kept, ms, rfl, rfl, result⟩ | ⟨kept, xs, rfl, rfl, result⟩ | ⟨b, a, rfl, rfl, _, result⟩
      | ⟨_, result⟩
    all_goals rw [result]
    · refine .object (keys_mergeMembers kept ms) ?_
      intro k v w hv hw
      rw [get?_mergeMembers hn.nodup_keys, hv] at hw
      cases hk : Members.get? k ms with
      | none =>
        rw [hk] at hw
        cases hw
        exact .refl (ho.get? hv)
      | some u =>
        rw [hk] at hw
        cases hw
        exact ih ms rfl _ (Members.mem_of_get? hk) (ho.get? hv)
    · exact .array (List.prefix_append kept xs)
    · exact .atom b
    · exact .refl ho

/-! ## What does not clash is carried over, and nothing is invented -/

theorem agrees_self {a : Atom} (h : a ≠ .double .nan) : a.agrees a = true := by
  cases a with
  | double x => exact Double.same_self fun e => h (e ▸ rfl)
  | _ => simp [Atom.agrees]

def isObject : Json → Bool
  | .object _ => true
  | _ => false

/-- Both values hold something at a path, what they hold cannot be brought together, and both hold
an object at every shorter path that leads there. -/
def Clash (old new : Json) (q : KeyPath) : Prop :=
  (∃ a ∈ old.at? q, ∃ b ∈ new.at? q, a.joins b = false) ∧
    ∀ n < q.length, (old.at? (q.take n)).any isObject ∧ (new.at? (q.take n)).any isObject

instance (old new : Json) (q : KeyPath) : Decidable (Clash old new q) :=
  inferInstanceAs (Decidable (_ ∧ _))

theorem clash_nil {old new : Json} : Clash old new [] ↔ old.joins new = false := by
  simp [Clash]

theorem clash_cons_object {kept ms : Members} {k : Text} {q : KeyPath} :
    Clash (.object kept) (.object ms) (k :: q) ↔
      ∃ o ∈ Members.get? k kept, ∃ u ∈ Members.get? k ms, Clash o u q := by
  constructor
  · rintro ⟨⟨a, ha, b, hb, apart⟩, way⟩
    obtain ⟨o, ho, below⟩ := Option.bind_eq_some_iff.1 ha
    obtain ⟨u, hu, incoming⟩ := Option.bind_eq_some_iff.1 hb
    have ho : Members.get? k kept = some o := ho
    have hu : Members.get? k ms = some u := hu
    refine ⟨o, ho, u, hu, ⟨a, below, b, incoming, apart⟩, ?_⟩
    intro n hn
    have both := way (n + 1) (Nat.succ_lt_succ hn)
    rwa [List.take_succ_cons, at?_cons_object, at?_cons_object, ho, hu] at both
  · rintro ⟨o, ho, u, hu, ⟨a, below, b, incoming, apart⟩, way⟩
    rw [Option.mem_def] at ho hu
    refine ⟨⟨a, Option.bind_eq_some_iff.2 ⟨o, ho, below⟩, b,
      Option.bind_eq_some_iff.2 ⟨u, hu, incoming⟩, apart⟩, ?_⟩
    intro n hn
    cases n with
    | zero => exact ⟨rfl, rfl⟩
    | succ n =>
      rw [List.take_succ_cons, at?_cons_object, at?_cons_object, ho, hu]
      exact way n (Nat.lt_of_succ_lt_succ hn)

theorem not_clash_cons {old new : Json} (h : old.joins new = false) (k : Text) (q : KeyPath) :
    ¬ Clash old new (k :: q) := by
  rintro ⟨_, way⟩
  have both := way 0 (Nat.succ_pos _)
  cases old <;> cases new <;> simp [joins, isObject] at h both

mutual

/-- The paths of keys to all that a value holds, itself first, in document order. -/
def keyPaths : Json → List KeyPath
  | .object ms => [] :: memberPaths ms
  | .array _ => [[]]
  | .atom _ => [[]]

def memberPaths : List (Text × Json) → List KeyPath
  | [] => []
  | (k, v) :: ms => (keyPaths v).map (k :: ·) ++ memberPaths ms

end

theorem memberPaths_eq (ms : List (Text × Json)) :
    memberPaths ms = ms.flatMap fun m => (keyPaths m.2).map (m.1 :: ·) := by
  induction ms with
  | nil => rw [memberPaths]; rfl
  | cons m ms ih => rw [memberPaths, ih, List.flatMap_cons]

theorem exists_keyPaths (v : Json) : ∃ rest, v.keyPaths = [] :: rest ∧ [] ∉ rest := by
  cases v with
  | object ms => exact ⟨memberPaths ms, by rw [keyPaths], by simp [memberPaths_eq]⟩
  | _ => exact ⟨[], by rw [keyPaths], List.not_mem_nil⟩

theorem mem_keyPaths {v : Json} {q : KeyPath} (h : v.WellKeyed) :
    q ∈ v.keyPaths ↔ (v.at? q).isSome := by
  induction h generalizing q with
  | atom a => cases q <;> simp [keyPaths]
  | array _ _ => cases q <;> simp [keyPaths]
  | @object ms nodup hm ih =>
    rw [keyPaths, memberPaths_eq]
    cases q with
    | nil => simp
    | cons k q =>
      rw [at?_cons_object, List.mem_cons, List.mem_flatMap]
      constructor
      · rintro (h | ⟨m, mem, hq⟩)
        · cases h
        · obtain ⟨r, hr, e⟩ := List.mem_map.1 hq
          cases e
          rw [Members.get?_of_mem nodup mem]
          exact (ih m mem).1 hr
      · intro h
        cases hu : Members.get? k ms with
        | none =>
          rw [hu] at h
          cases h
        | some u =>
          rw [hu] at h
          have mem := Members.mem_of_get? hu
          exact .inr ⟨(k, u), mem, List.mem_map.2 ⟨q, (ih _ mem).2 h, rfl⟩⟩

theorem memberConflicts_eq {kept ms : Members} {m : Text × Json} (nodup : (Members.keys ms).Nodup)
    (mem : m ∈ ms)
    (ih : ∀ old, (merge old m.2).2 = (keyPaths m.2).filter fun q => Clash old m.2 q) :
    memberConflicts kept m =
      ((keyPaths m.2).map (m.1 :: ·)).filter fun q => Clash (.object kept) (.object ms) q := by
  have there := Members.get?_of_mem nodup mem
  rw [List.filter_map, memberConflicts]
  cases ho : Members.get? m.1 kept with
  | none =>
    have none_clash : ∀ q ∈ keyPaths m.2, ¬ Clash (.object kept) (.object ms) (m.1 :: q) := by
      intro q _ h
      obtain ⟨o, h, _⟩ := clash_cons_object.1 h
      rw [ho] at h
      cases h
    rw [List.filter_eq_nil_iff.2 (by simpa using none_clash), List.map_nil]
  | some o =>
    dsimp only
    rw [ih o]
    congr 1
    apply List.filter_congr
    intro q _
    simp only [Function.comp_apply, clash_cons_object, ho, there, Option.mem_some, exists_eq_left']

/-- A merge reports exactly the clashes, in document order. -/
theorem conflicts_merge {old new : Json} (hn : new.WellKeyed) :
    (merge old new).2 = new.keyPaths.filter fun q => Clash old new q := by
  induction hn using WellKeyed.inward generalizing old with
  | step new hn ih =>
    rcases merge_cases old new with
      ⟨kept, ms, rfl, rfl, result⟩ | ⟨kept, xs, rfl, rfl, result⟩
      | ⟨b, a, rfl, rfl, agreed, result⟩ | ⟨apart, result⟩
    all_goals rw [result]
    · have joined : ¬ Clash (.object kept) (.object ms) [] := by simp [clash_nil, joins]
      rw [conflicts_mergeMembers hn.nodup_keys, keyPaths, memberPaths_eq,
        List.filter_cons_of_neg (by simpa using joined), List.filter_flatMap]
      apply List.flatMap_congr
      intro m mem
      exact memberConflicts_eq hn.nodup_keys mem fun old => ih ms rfl m mem
    · simp [keyPaths, clash_nil, joins]
    · simp [keyPaths, clash_nil, joins, agreed]
    · obtain ⟨rest, paths, proper⟩ := exists_keyPaths new
      have here : Clash old new [] := clash_nil.2 apart
      have below : ∀ q ∈ rest, ¬ Clash old new q := by
        intro q hq
        cases q with
        | nil => exact absurd hq proper
        | cons k q => exact not_clash_cons apart k q
      rw [paths, List.filter_cons_of_pos (by simpa using here),
        List.filter_eq_nil_iff.2 (by simpa using below)]

theorem mem_conflicts_merge {old new : Json} (hn : new.WellKeyed) {q : KeyPath} :
    q ∈ (merge old new).2 ↔ Clash old new q := by
  rw [conflicts_merge hn, List.mem_filter, decide_eq_true_iff]
  apply and_iff_right_of_imp
  rintro ⟨⟨_, _, b, hb, _⟩, _⟩
  exact (mem_keyPaths hn).2 (Option.isSome_iff_exists.2 ⟨b, hb⟩)

end Json
end Intake
