import Mathlib.Data.List.TakeWhile
import Intake.Json.Reader
import Intake.Json.Writer
import Intake.Proofs.Json.Merge
import Intake.Proofs.Sequence
import Intake.Proofs.Values.Digits

set_option autoImplicit false

/-!
# Values that can be written

A value is writable if no integer in it has too many digits. So is everything that is read
(`isWritable_read`), and a merge of writable values (`isWritable_merge`): only an integer that was
never a text can be too long. A merge writes both values of a clash into a note, hence it can be
carried through exactly if all of them can be written (`ClashesShow`).
-/

namespace Intake.Json

/-! ## What is read -/

theorem isWritable_finishNumber {negative : Bool} {whole rest : Text} {out : Atom × Text}
    (digit : ∀ c ∈ whole, c.isDigit = true) (some : whole ≠ [])
    (h : finishNumber negative whole rest = .ok out) : (atom out.1).isWritable = true := by
  unfold finishNumber at h
  dsimp only at h
  split at h
  · split at h
    · next n read =>
      cases h
      unfold Numeral.value? at read
      split at read
      · next few =>
        cases read
        have short := Nat.le_trans (Numeral.length_digits_value_le digit some) few
        cases negative <;> simpa [Numeral.isWritable, Numeral.signed] using short
      · cases read
    · cases h
  · cases h
    rfl

theorem isWritable_readNumber {negative : Bool} {cs : Text} {out : Atom × Text}
    (h : readNumber negative cs = .ok out) : (atom out.1).isWritable = true := by
  unfold readNumber at h
  split at h
  · exact isWritable_finishNumber (by decide) (by decide) h
  · dsimp only at h
    split at h
    · cases h
    · next some =>
      refine isWritable_finishNumber (fun c mem => List.mem_takeWhile_imp mem) ?_ h
      simpa using some

theorem isWritable_readAtom {cs : Text} {out : Atom × Text} (h : readAtom cs = .ok out) :
    (atom out.1).isWritable = true := by
  unfold readAtom at h
  split at h
  case h_7 =>
    obtain ⟨_, _, rfl⟩ := exists_of_map_ok h
    rfl
  case h_8 => exact isWritable_readNumber h
  case h_9 => exact isWritable_readNumber h
  all_goals
    cases h
    rfl

/-- The three readers call each other with less and less fuel. -/
theorem isWritable_readers (fuel : Nat) :
    (∀ cs out, readValue fuel cs = .ok out → out.1.isWritable = true) ∧
    (∀ cs out, readItems fuel cs = .ok out → ∀ v ∈ out.1, v.isWritable = true) ∧
    ∀ cs out, readMembers fuel cs = .ok out → ∀ m ∈ out.1, m.2.isWritable = true := by
  induction fuel with
  | zero => exact ⟨nofun, nofun, nofun⟩
  | succ fuel ih =>
    obtain ⟨value, items, members⟩ := ih
    refine ⟨fun cs out h => ?_, fun cs out h => ?_, fun cs out h => ?_⟩
    · rw [readValue] at h
      split at h
      · split at h
        · cases h
          simp
        · obtain ⟨read, inner, rfl⟩ := exists_of_map_ok h
          exact isWritable_array.2 (items _ _ inner)
      · split at h
        · cases h
          simp
        · obtain ⟨read, inner, rfl⟩ := exists_of_map_ok h
          exact isWritable_object.2 (members _ _ inner)
      · obtain ⟨read, inner, rfl⟩ := exists_of_map_ok h
        exact isWritable_readAtom inner
    · rw [readItems] at h
      split at h
      · cases h
      · next v rest first =>
        have here := value _ _ first
        split at h
        · obtain ⟨read, later, rfl⟩ := exists_of_map_ok h
          exact List.forall_mem_cons.2 ⟨here, items _ _ later⟩
        · cases h
          simpa using here
        · cases h
    · rw [readMembers] at h
      split at h
      · cases h
      · split at h
        · cases h
        · next v rest first =>
          have here := value _ _ first
          split at h
          · obtain ⟨read, later, rfl⟩ := exists_of_map_ok h
            exact List.forall_mem_cons.2 ⟨here, members _ _ later⟩
          · cases h
            simpa using here
          · cases h

theorem haveWritable_set {kept : Members} (hk : ∀ m ∈ kept, m.2.isWritable = true) (k : Text)
    {v : Json} (hv : v.isWritable = true) : ∀ m ∈ Members.set k v kept, m.2.isWritable = true := by
  intro m mem
  rcases Members.mem_set mem with rfl | old
  · exact hv
  · exact hk m old

mutual

theorem isWritable_dedup : (v : Json) → v.isWritable = true → v.dedup.isWritable = true
  | .atom a => fun h => by rwa [dedup]
  | .array xs => fun h => by
    rw [dedup]
    exact isWritable_array.2 (isWritable_dedupItems xs (isWritable_array.1 h))
  | .object ms => fun h => by
    rw [dedup]
    exact isWritable_object.2 (isWritable_dedupMembers [] ms (by simp) (isWritable_object.1 h))

theorem isWritable_dedupItems : (xs : List Json) → (∀ v ∈ xs, v.isWritable = true) →
    ∀ v ∈ dedupItems xs, v.isWritable = true
  | [] => fun _ => by simp [dedupItems]
  | v :: vs => fun h => by
    obtain ⟨here, later⟩ := List.forall_mem_cons.1 h
    rw [dedupItems]
    exact List.forall_mem_cons.2 ⟨isWritable_dedup v here, isWritable_dedupItems vs later⟩

theorem isWritable_dedupMembers : (kept : Members) → (ms : List (Text × Json)) →
    (∀ m ∈ kept, m.2.isWritable = true) → (∀ m ∈ ms, m.2.isWritable = true) →
    ∀ m ∈ dedupMembers kept ms, m.2.isWritable = true
  | kept, [] => fun hk _ => by rwa [dedupMembers]
  | kept, (k, v) :: ms => fun hk h => by
    obtain ⟨here, later⟩ := List.forall_mem_cons.1 h
    rw [dedupMembers]
    apply isWritable_dedupMembers _ ms _ later
    exact haveWritable_set hk k (isWritable_dedup v here)

end

/-- Whatever is read can be written. -/
theorem isWritable_read {s : Text} {v : Json} (h : read s = .ok v) : v.isWritable = true := by
  unfold read at h
  split at h
  · cases h
  · next w rest inner =>
    split at h
    · cases h
      exact isWritable_dedup w ((isWritable_readers _).1 _ _ inner)
    · cases h

/-! ## Merges -/

theorem isWritable_at? {q : KeyPath} {v w : Json} (hv : v.isWritable = true)
    (h : v.at? q = some w) : w.isWritable = true := by
  induction q generalizing v with
  | nil =>
    cases h
    exact hv
  | cons k q ih =>
    cases v with
    | atom a => cases h
    | array xs => cases h
    | object ms =>
      obtain ⟨u, hu, below⟩ := Option.bind_eq_some_iff.1 h
      exact ih (isWritable_object.1 hv _ (Members.mem_of_get? hu)) below

mutual

theorem isWritable_merge : (old new : Json) → old.isWritable = true → new.isWritable = true →
    (merge old new).1.isWritable = true
  | old, .object ms => fun ho hn => by
    cases old <;> simp only [merge]
    case object kept =>
      apply isWritable_object.2
      exact isWritable_mergeMembers kept ms (isWritable_object.1 ho) (isWritable_object.1 hn)
    all_goals exact ho
  | old, .array xs => fun ho hn => by
    cases old <;> simp only [merge]
    case array kept =>
      apply isWritable_array.2
      exact List.forall_mem_append.2 ⟨isWritable_array.1 ho, isWritable_array.1 hn⟩
    all_goals exact ho
  | old, .atom a => fun ho _ => by
    cases old <;> simp only [merge] <;> exact ho

theorem isWritable_mergeMembers : (kept : Members) → (ms : List (Text × Json)) →
    (∀ m ∈ kept, m.2.isWritable = true) → (∀ m ∈ ms, m.2.isWritable = true) →
    ∀ m ∈ (mergeMembers kept ms).1, m.2.isWritable = true
  | kept, [] => fun hk _ => by rwa [mergeMembers]
  | kept, (k, v) :: ms => fun hk h => by
    obtain ⟨here, later⟩ := List.forall_mem_cons.1 h
    rw [mergeMembers]
    split
    · exact isWritable_mergeMembers _ ms (haveWritable_set hk k here) later
    · next old ho =>
      apply isWritable_mergeMembers _ ms _ later
      exact haveWritable_set hk k (isWritable_merge old v (hk _ (Members.mem_of_get? ho)) here)

end

/-- Wherever two values clash, what they hold there can be written. -/
def ClashesShow (old new : Json) : Prop :=
  ∀ q, Clash old new q → ∀ v ∈ old.at? q, ∀ w ∈ new.at? q,
    v.isWritable = true ∧ w.isWritable = true

theorem clashesShow_of_isWritable {old new : Json} (ho : old.isWritable = true)
    (hn : new.isWritable = true) : ClashesShow old new :=
  fun _ _ _ hv _ hw => ⟨isWritable_at? ho hv, isWritable_at? hn hw⟩

theorem clashesShow_of_no_conflicts {old new : Json} (hn : new.WellKeyed)
    (none : (merge old new).2 = []) : ClashesShow old new := by
  intro q clash
  rw [← mem_conflicts_merge hn, none] at clash
  cases clash

/-- Values that do not join clash as a whole. -/
theorem clashesShow_of_apart {old new : Json} (apart : old.joins new = false) :
    ClashesShow old new ↔ old.isWritable = true ∧ new.isWritable = true := by
  constructor
  · intro shown
    exact shown [] (clash_nil.2 apart) old rfl new rfl
  · rintro ⟨ho, hn⟩
    exact clashesShow_of_isWritable ho hn

/-- Values that join without being objects clash nowhere. -/
theorem clashesShow_of_joins {old new : Json} (joined : old.joins new = true)
    (flat : new.isObject = false) : ClashesShow old new := by
  intro q clash
  cases q with
  | nil =>
    rw [clash_nil, joined] at clash
    cases clash
  | cons k q =>
    have way := (clash.2 0 (Nat.succ_pos _)).2
    rw [List.take_zero, at?_nil, Option.any_some, flat] at way
    cases way

/-- The members of an object can be merged one by one into other members. -/
def MembersShow (kept : Members) (ms : List (Text × Json)) : Prop :=
  ∀ m ∈ ms, ∀ old ∈ Members.get? m.1 kept, ClashesShow old m.2

theorem clashesShow_object_iff {kept ms : Members} (nodup : (Members.keys ms).Nodup) :
    ClashesShow (.object kept) (.object ms) ↔ MembersShow kept ms := by
  constructor
  · intro shown m mem old stored q clash v hv w hw
    have incoming := Members.get?_of_mem nodup mem
    refine shown (m.1 :: q) (clash_cons_object.2 ⟨old, stored, m.2, incoming, clash⟩) v ?_ w ?_
    · exact Option.bind_eq_some_iff.2 ⟨old, stored, hv⟩
    · exact Option.bind_eq_some_iff.2 ⟨m.2, incoming, hw⟩
  · intro shown q clash v hv w hw
    cases q with
    | nil => cases clash_nil.1 clash
    | cons k q =>
      obtain ⟨o, ho, u, hu, below⟩ := clash_cons_object.1 clash
      rw [Option.mem_def, at?_cons_object, Option.mem_def.1 ho] at hv
      rw [Option.mem_def, at?_cons_object, Option.mem_def.1 hu] at hw
      exact shown (k, u) (Members.mem_of_get? hu) o ho q below v hv w hw

/-- A member that has been merged is out of the way of the others. -/
theorem membersShow_cons {kept : Members} {m : Text × Json} {ms : List (Text × Json)}
    (fresh : m.1 ∉ Members.keys ms) (v : Json) : MembersShow kept (m :: ms) ↔
      (∀ old ∈ Members.get? m.1 kept, ClashesShow old m.2) ∧
        MembersShow (Members.set m.1 v kept) ms := by
  have others : ∀ n ∈ ms, Members.get? n.1 (Members.set m.1 v kept) = Members.get? n.1 kept := by
    intro n mem
    apply Members.get?_set_of_ne
    exact fun same => fresh (List.mem_map.2 ⟨n, mem, same⟩)
  rw [MembersShow, List.forall_mem_cons, MembersShow]
  refine and_congr_right fun _ => forall₂_congr fun n mem => ?_
  rw [others n mem]

end Intake.Json
