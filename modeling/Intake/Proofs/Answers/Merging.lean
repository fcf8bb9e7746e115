import Intake.Merge.Walk
import Intake.Proofs.Answers.Writing
import Intake.Proofs.Json.Writable

set_option autoImplicit false

/-!
# Merging into answers

A merge reads and writes the answers from the root at every member, while they change. Every such
write is behind the object that is being merged into, so that it comes to a write of that object
with one more key set: `mergeMembers_run` is an induction with this as its invariant. `merged_merge`
says that the walk comes to a merge of the two trees (`Answers.merge`), unless it breaks off because
a clash cannot be shown. The results on values carry over.
-/

namespace Intake

namespace Path

/-- Keys become segments as they stand. -/
def ofKeys (keys : KeyPath) : Path := ⟨keys.map fun k => ⟨k, none⟩⟩

def below (p : Path) (q : KeyPath) : Path := ⟨p.segments ++ (ofKeys q).segments⟩

theorem below_nil (p : Path) : p.below [] = p := by
  simp [below, ofKeys]

theorem below_cons (p : Path) (k : Text) (q : KeyPath) :
    p.below (k :: q) = (p.field k).below q := by
  simp [below, ofKeys, field, append]

theorem below_root : root.below = ofKeys := by
  funext q
  simp [below, root]

theorem segments_field (p : Path) (k : Text) : (p.field k).segments ≠ [] := by
  simp [field, append]

theorem steps_field (p : Path) (k : Text) : (p.field k).steps = p.steps ++ [.key k] := by
  simp [steps, field, append, Segment.steps, Segment.indexSteps]

end Path

namespace Answers

/-- What a merge comes to when it is carried through. -/
def merge (d other : Answers) : Answers × List KeyPath :=
  let r := Json.mergeMembers d.members other.members
  ({ d with
      members := r.1
      wellKeyed := Json.wellKeyed_mergeMembers d.members other.members d.wellKeyed
        other.wellKeyed.members }, r.2)

theorem merge_tree (d other : Answers) :
    Json.merge d.tree other.tree = ((d.merge other).1.tree, (d.merge other).2) := by
  rw [tree, tree, Json.merge]
  rfl

theorem tree_merge (d other : Answers) :
    (d.merge other).1.tree = (Json.merge d.tree other.tree).1 := by
  rw [merge_tree]

theorem conflicts_merge (d other : Answers) :
    (d.merge other).2 = (Json.merge d.tree other.tree).2 := by
  rw [merge_tree]

theorem eq_of_tree {d e : Answers} (tree : d.tree = e.tree) (locked : d.locked = e.locked)
    (locale : d.locale = e.locale) : d = e := by
  cases d
  cases e
  cases tree
  cases locked
  cases locale
  rfl

theorem get?_field {d : Answers} {root : Path} {kept : Members}
    (here : d.get? root = some (.object kept)) (k : Text) :
    d.get? (root.field k) = Members.get? k kept := by
  rw [get?] at here
  rw [get?, Path.steps_field, Json.get?_append, here]
  exact Option.bind_fun_some (Members.get? k kept)

/-- A write of a field of an object comes to a write of the object with that key set. -/
theorem put_field {d : Answers} {root : Path} {kept : Members}
    (here : d.get? root = some (.object kept)) (k : Text) (v : Json) :
    Json.put (root.field k).steps v (some d.tree) =
      Json.put root.steps (.object (Members.set k v kept)) (some d.tree) := by
  rw [Path.steps_field]
  exact Json.put_append here rfl

theorem exists_put_field {d : Answers} {root : Path} {kept : Members}
    (here : d.get? root = some (.object kept)) (k : Text) (v : Json) :
    ∃ t, Json.put (root.field k).steps v (some d.tree) = .ok t := by
  rw [put_field here]
  exact Json.exists_put_of_get? here _

namespace Written

theorem refl {d : Answers} {p : Path} {w : Json} (h : d.get? p = some w) : d.Written p w d :=
  ⟨Json.put_of_get? h, rfl, rfl⟩

theorem get?_self {d new : Answers} {p : Path} {v : Json} (h : d.Written p v new) :
    new.get? p = some v :=
  Json.get?_put_self h.tree

theorem trans {d mid new : Answers} {p : Path} {v w : Json} (first : d.Written p v mid)
    (second : mid.Written p w new) : d.Written p w new where
  tree := by
    rw [← second.tree]
    exact (Json.put_put first.tree w).symm
  locked := second.locked.trans first.locked
  locale := second.locale.trans first.locale

theorem field {d new : Answers} {root : Path} {k : Text} {v : Json} {kept : Members}
    (here : d.get? root = some (.object kept)) (h : d.Written (root.field k) v new) :
    d.Written root (.object (Members.set k v kept)) new where
  tree := (put_field here k v).symm.trans h.tree
  locked := h.locked
  locale := h.locale

end Written

end Answers

namespace Edit

theorem append_ok {d : Answers} {p : Path} {kept xs : List Json} (unlocked : d.locked = false)
    (inside : p.segments ≠ []) (hx : (Json.array xs).WellKeyed)
    (here : d.get? p = some (.array kept)) :
    ∃ new, append p xs hx d = .ok () new ∧ d.Written p (.array (kept ++ xs)) new := by
  obtain ⟨t, ht⟩ := Json.exists_put_of_get? here (.array (kept ++ xs))
  have grown : (Json.array (kept ++ xs)).WellKeyed := (d.wellKeyed_get? here).append hx
  obtain ⟨new, run, written⟩ := put_ok unlocked inside grown ht
  refine ⟨new, ?_, written⟩
  apply (requireUnlocked_bind unlocked _).trans
  split
  · next ys h =>
    rw [here] at h
    cases h
    exact run
  · next h => exact absurd here (h kept)

/-- What a merge at a path can come to. Either all clashes can be shown, and the value there becomes
what a merge makes of it, or the merge breaks off. -/
inductive Merged (d : Answers) (p : Path) (shown : Prop) (w : Json) (conflicts : List Path) :
    EStateM.Result Fault Answers (List Path) → Prop where
  | whole {new : Answers} : shown → d.Written p w new →
      Merged d p shown w conflicts (.ok conflicts new)
  | cut {new : Answers} : ¬ shown → new.locked = d.locked → new.locale = d.locale →
      Merged d p shown w conflicts (.error .numeralTooLong new)

namespace Merged

variable {d : Answers} {p : Path} {shown other : Prop} {v w : Json} {ps qs : List Path}

theorem congr {x : EStateM.Result Fault Answers (List Path)} (h : Merged d p shown w ps x)
    (same : shown ↔ other) : Merged d p other w ps x := by
  cases h with
  | whole fine written => exact .whole (same.1 fine) written
  | cut hidden locked locale => exact .cut (fun fine => hidden (same.2 fine)) locked locale

theorem field {root : Path} {k : Text} {kept : Members}
    {x : EStateM.Result Fault Answers (List Path)} (here : d.get? root = some (.object kept))
    (h : Merged d (root.field k) shown v ps x) :
    Merged d root shown (.object (Members.set k v kept)) ps x := by
  cases h with
  | whole fine written => exact .whole fine (written.field here)
  | cut hidden locked locale => exact .cut hidden locked locale

/-- Two merges at one path, one after the other. -/
theorem append {x y : Edit (List Path)} (first : Merged d p shown v ps (x d))
    (second : ∀ mid, d.Written p v mid → Merged mid p other w qs (y mid)) :
    Merged d p (shown ∧ other) w (ps ++ qs) ((do return (← x) ++ (← y)) d) := by
  simp only [bind, EStateM.bind]
  generalize x d = result at first
  cases first with
  | cut hidden locked locale => exact .cut (fun fine => hidden fine.1) locked locale
  | @whole mid fine written =>
    have later := second mid written
    dsimp only
    generalize y mid = result at later
    cases later with
    | whole more again => exact .whole ⟨fine, more⟩ (written.trans again)
    | cut hidden locked locale =>
      exact .cut (fun fine => hidden fine.2) (locked.trans written.locked)
        (locale.trans written.locale)

end Merged

/-- Nothing happens at a conflict, but it is noted. -/
theorem merged_conflict {d : Answers} {p : Path} {old v : Json} (here : d.get? p = some old) :
    Merged d p (old.isWritable = true ∧ v.isWritable = true) old [p] (conflict p old v d) := by
  unfold conflict
  rw [← Bool.and_eq_true]
  split
  · next fine => exact .whole fine (.refl here)
  · next hidden => exact .cut hidden rfl rfl

/-- Merging a value by its path comes to `Json.merge`, wherever it goes. -/
def MergesInto (v : Json) (hv : v.WellKeyed) : Prop :=
  ∀ (p : Path) (old : Json) (d : Answers), p.segments ≠ [] → d.locked = false →
    d.get? p = some old →
    Merged d p (old.ClashesShow v) (Json.merge old v).1 ((Json.merge old v).2.map p.below)
      (mergeInto p old v hv d)

theorem copyOr_run {m : Text × Json} {hv : m.2.WellKeyed} (each : MergesInto m.2 hv)
    {root : Path} {kept : Members} {d : Answers} (unlocked : d.locked = false)
    (here : d.get? root = some (.object kept)) :
    Merged d root (∀ old ∈ Members.get? m.1 kept, old.ClashesShow m.2)
      (.object (Members.set m.1 (Json.mergedMember kept m) kept))
      ((Json.memberConflicts kept m).map root.below)
      (copyOr (root.field m.1) m.2 hv (fun old => mergeInto (root.field m.1) old m.2 hv) d) := by
  have inside := Path.segments_field root m.1
  have stored := Answers.get?_field here m.1
  rw [Json.memberConflicts, Json.mergedMember]
  cases hk : Members.get? m.1 kept with
  | none =>
    rw [hk] at stored
    obtain ⟨t, ht⟩ := Json.exists_put_of_get? here (.object (Members.set m.1 m.2 kept))
    have free := (Answers.put_field here m.1 m.2).trans ht
    obtain ⟨new, run, written⟩ := put_ok unlocked inside hv free
    have copied : copyOr (root.field m.1) m.2 hv
        (fun old => mergeInto (root.field m.1) old m.2 hv) d = .ok [] new := by
      rw [copyOr_absent stored]
      simp [bind, EStateM.bind, run, pure, EStateM.pure]
    rw [copied]
    exact .whole (by simp) (written.field here)
  | some old =>
    rw [hk] at stored
    have merged := (each _ old d inside unlocked stored).field here
    rw [copyOr_stored stored]
    simpa [Function.comp_def, Path.below_cons] using merged

/-- The object at `root` stays what has been merged so far while its members are gone through. -/
theorem mergeMembers_run {root : Path} {ms : List (Text × Json)} (h : ∀ m ∈ ms, m.2.WellKeyed)
    (nodup : (Members.keys ms).Nodup) (each : ∀ m (mem : m ∈ ms), MergesInto m.2 (h m mem))
    {kept : Members} {d : Answers} (unlocked : d.locked = false)
    (here : d.get? root = some (.object kept)) :
    Merged d root (Json.MembersShow kept ms) (.object (Json.mergeMembers kept ms).1)
      ((Json.mergeMembers kept ms).2.map root.below) (mergeMembers root ms h d) := by
  induction ms generalizing kept d with
  | nil =>
    rw [Json.mergeMembers, mergeMembers]
    exact .whole (List.forall_mem_nil _) (.refl here)
  | cons m ms ih =>
    obtain ⟨fresh, rest⟩ := List.nodup_cons.1 nodup
    have first := copyOr_run (each m List.mem_cons_self) unlocked here
    have later : ∀ n ∈ ms, n.2.WellKeyed := fun n hn => h n (List.mem_cons_of_mem _ hn)
    have both := first.append (y := mergeMembers root ms later) fun mid written =>
      ih later rest (fun n hn => each n (List.mem_cons_of_mem _ hn))
        (written.locked.trans unlocked) written.get?_self
    rw [Json.mergeMembers_cons, List.map_append, mergeMembers]
    exact both.congr (Json.membersShow_cons fresh _).symm

/-- Where two values do not join, the path is a conflict. -/
theorem mergeInto_of_apart {v old : Json} {hv : v.WellKeyed} {p : Path} {d : Answers}
    (apart : old.joins v = false) : mergeInto p old v hv d = conflict p old v d := by
  cases v with
  | atom a =>
    cases old with
    | atom b =>
      rw [Json.joins] at apart
      simp [mergeInto, apart]
    | _ => rfl
  | array xs =>
    cases old with
    | array kept => cases apart
    | _ => rfl
  | object ms =>
    cases old with
    | object kept => cases apart
    | _ => rfl

theorem mergesInto {v : Json} (hv : v.WellKeyed) : MergesInto v hv := by
  induction hv using Json.WellKeyed.inward with
  | step v hv ih =>
    intro p old d inside unlocked here
    rcases Json.merge_cases old v with
      ⟨kept, ms, rfl, rfl, result⟩ | ⟨kept, xs, rfl, rfl, result⟩
      | ⟨b, a, rfl, rfl, agreed, result⟩ | ⟨apart, result⟩
    all_goals rw [result]
    · have members := mergeMembers_run hv.members hv.nodup_keys (ih ms rfl) unlocked here
      have run : mergeInto p (.object kept) (.object ms) hv d = mergeMembers p ms hv.members d :=
        requireUnlocked_bind unlocked _
      rw [run]
      exact members.congr (Json.clashesShow_object_iff hv.nodup_keys).symm
    · obtain ⟨new, appended, written⟩ := append_ok unlocked inside hv here
      have run : mergeInto p (.array kept) (.array xs) hv d = .ok [] new := by
        simp only [mergeInto, bind, EStateM.bind, appended]
        rfl
      rw [run]
      exact .whole (Json.clashesShow_of_joins rfl rfl) written
    · have run : mergeInto p (.atom b) (.atom a) hv d = .ok [] d := by
        simp only [mergeInto, agreed]
        rfl
      rw [run]
      exact .whole (Json.clashesShow_of_joins agreed rfl) (.refl here)
    · rw [mergeInto_of_apart apart, List.map_singleton, Path.below_nil]
      exact (merged_conflict here).congr (Json.clashesShow_of_apart apart).symm

/-- Going through the members by their paths comes to `Answers.merge`, unless it breaks off. -/
theorem merged_merge {d : Answers} (unlocked : d.locked = false) (other : Answers) :
    Merged d .root (d.tree.ClashesShow other.tree) (d.merge other).1.tree
      ((d.merge other).2.map Path.ofKeys) ((merge other).run d) := by
  have members := other.wellKeyed.members
  have here : d.get? .root = some (.object d.members) := rfl
  have walk := mergeMembers_run members other.wellKeyed.nodup_keys
    (fun m mem => mergesInto (members m mem)) unlocked here
  have run : (merge other).run d = mergeMembers .root other.members members d :=
    requireUnlocked_bind unlocked _
  rw [run, ← Path.below_root]
  exact walk.congr (Json.clashesShow_object_iff other.wellKeyed.nodup_keys).symm

theorem merge_run {d other : Answers} (unlocked : d.locked = false)
    (shown : d.tree.ClashesShow other.tree) :
    (merge other).run d = .ok ((d.merge other).2.map Path.ofKeys) (d.merge other).1 := by
  have merged := merged_merge unlocked other
  generalize (merge other).run d = result at merged
  cases merged with
  | cut hidden _ _ => exact absurd shown hidden
  | @whole new _ written =>
    have same : new = (d.merge other).1 :=
      Answers.eq_of_tree (Except.ok.inj written.tree).symm written.locked written.locale
    rw [same]

theorem merge_breaks_off {d other : Answers} (unlocked : d.locked = false)
    (hidden : ¬ d.tree.ClashesShow other.tree) :
    ∃ new, (merge other).run d = .error .numeralTooLong new := by
  have merged := merged_merge unlocked other
  generalize (merge other).run d = result at merged
  cases merged with
  | whole shown _ => exact absurd shown hidden
  | cut _ _ _ => exact ⟨_, rfl⟩

end Edit

end Intake
