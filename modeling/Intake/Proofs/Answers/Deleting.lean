import Intake.Answers.Entities
import Intake.Proofs.Answers.Order

set_option autoImplicit false

/-!
# Deleting repeated entities

Indices are taken once each and from the highest down, so that the ones still to come mean the same
elements as before (`without_eraseIdx`). `deleteEach_run` is the induction over them: elements go
until an index is negative, and what has gone by then stays away. Only the highest index is looked
at before the first element goes, also whether it can be written, which the lower ones can be then
as well.
-/

namespace Intake

namespace Edit

/-! ## The indices in order -/

theorem mem_descending {i : Int} {indices : List Int} : i ∈ descending indices ↔ i ∈ indices := by
  rw [descending, List.mem_eraseDups, List.mem_mergeSort]

theorem descending_eq_nil_iff {indices : List Int} : descending indices = [] ↔ indices = [] := by
  simp only [List.eq_nil_iff_forall_not_mem, mem_descending]

theorem pairwise_eraseDups : (is : List Int) → is.Pairwise (fun i j => j ≤ i) →
    is.eraseDups.Pairwise fun i j => j < i
  | [], _ => by simp
  | i :: is, sorted => by
    obtain ⟨first, later⟩ := List.pairwise_cons.1 sorted
    rw [List.eraseDups_cons, List.pairwise_cons]
    refine ⟨fun j mem => ?_, pairwise_eraseDups _ (later.filter _)⟩
    obtain ⟨mem, other⟩ := List.mem_filter.1 (List.mem_eraseDups.1 mem)
    have ne : j ≠ i := by simpa using other
    have le := first j mem
    omega
  termination_by is => is.length
  decreasing_by exact Nat.lt_succ_of_le (List.length_filter_le _ is)

theorem pairwise_descending (indices : List Int) :
    (descending indices).Pairwise fun i j => j < i := by
  refine pairwise_eraseDups _ ((List.pairwise_mergeSort ?_ ?_ indices).imp of_decide_eq_true)
  · intro i j k ij jk
    simp only [decide_eq_true_eq] at ij jk ⊢
    omega
  · intro i j
    simp only [Bool.or_eq_true, decide_eq_true_eq]
    omega

/-! ## What is left of an array -/

section Positions

variable {α : Type}

/-- The elements in their order, but those at some positions. -/
def without (positions : List Int) (xs : List α) : List α :=
  (xs.zipIdx.filter fun x => (x.2 : Int) ∉ positions).map Prod.fst

/-- What stands behind all positions is kept. -/
theorem without_append {positions : List Int} {xs ys : List α}
    (none : ∀ i, xs.length ≤ i → (i : Int) ∉ positions) :
    without positions (xs ++ ys) = without positions xs ++ ys := by
  have all : ((ys.zipIdx xs.length).filter fun x => (x.2 : Int) ∉ positions) =
      ys.zipIdx xs.length := by
    refine List.filter_eq_self.2 fun x mem => decide_eq_true (none x.2 ?_)
    exact List.le_snd_of_mem_zipIdx mem
  rw [without, List.zipIdx_append, List.filter_append, List.map_append, Nat.zero_add, all,
    List.zipIdx_map_fst, without]

theorem without_of_negative {positions : List Int} (negative : ∀ i ∈ positions, i < 0)
    (xs : List α) : without positions xs = xs := by
  have none : ∀ i, ([] : List α).length ≤ i → (i : Int) ∉ positions := by
    intro i _ mem
    have := negative i mem
    omega
  exact without_append none

theorem without_concat {positions : List Int} {xs : List α} (x : α)
    (gone : (xs.length : Int) ∈ positions) :
    without positions (xs ++ [x]) = without positions xs := by
  simp [without, List.zipIdx_append, gone]

theorem without_congr {ps qs : List Int} {xs : List α}
    (same : ∀ i < xs.length, (i : Int) ∈ ps ↔ (i : Int) ∈ qs) : without ps xs = without qs xs := by
  have agree : ∀ x ∈ xs.zipIdx, decide ((x.2 : Int) ∉ ps) = decide ((x.2 : Int) ∉ qs) := by
    intro x mem
    have within : x.2 < xs.length := by simpa using List.snd_lt_add_of_mem_zipIdx mem
    simp only [same x.2 within]
  rw [without, without, List.filter_congr agree]

/-- Behind the highest position nothing else goes, so it may go first. -/
theorem without_eraseIdx {n : Nat} {rest : List Int} (lower : ∀ j ∈ rest, j < n) {xs : List α}
    (within : n < xs.length) : without rest (xs.eraseIdx n) = without ((n : Int) :: rest) xs := by
  have before : (xs.take n).length = n := List.length_take_of_le (Nat.le_of_lt within)
  have split : xs = (xs.take n ++ [xs[n]]) ++ xs.drop (n + 1) := by simp
  have left : without rest (xs.eraseIdx n) = without rest (xs.take n) ++ xs.drop (n + 1) := by
    rw [List.eraseIdx_eq_take_drop_succ]
    refine without_append fun i hi mem => ?_
    have := lower i mem
    omega
  have right : without ((n : Int) :: rest) xs =
      without ((n : Int) :: rest) (xs.take n) ++ xs.drop (n + 1) := by
    conv => lhs; rw [split]
    rw [without_append, without_concat _ (by simp [before])]
    intro i hi mem
    rcases List.mem_cons.1 mem with same | mem
    · simp only [List.length_append, before, List.length_singleton] at hi
      omega
    · have := lower i mem
      simp only [List.length_append, before, List.length_singleton] at hi
      omega
  have same : without rest (xs.take n) = without ((n : Int) :: rest) (xs.take n) := by
    refine without_congr fun i hi => ?_
    have ne : (i : Int) ≠ n := by omega
    simp [ne]
  rw [left, right, same]

theorem length_without_lt {positions : List Int} {xs : List α} {n : Nat}
    (mem : (n : Int) ∈ positions) (within : n < xs.length) :
    (without positions xs).length < xs.length := by
  rw [without, List.length_map, ← List.length_zipIdx (l := xs) (i := 0)]
  refine List.length_filter_lt_length_iff_exists.2 ⟨(xs[n], n), ?_, by simpa using mem⟩
  exact List.mk_mem_zipIdx_iff_getElem?.2 (List.getElem?_eq_getElem within)

end Positions

/-! ## The run over the indices -/

section Run

variable {p : Path} {d : Answers} {xs : List Json}

theorem written_erase_element (inside : p.isRoot = false)
    (stored : d.get? p.withoutIndex = some (.array xs)) (n : Nat) :
    d.Written p.withoutIndex (.array (xs.eraseIdx n)) (d.erase (p.element n)) where
  tree := by
    have below : [Step.index n] ≠ [] := List.cons_ne_nil _ _
    rw [Answers.tree_erase, steps_element inside n]
    exact Json.put_erase below d.wellKeyed stored
  locked := (d.state_erase _).1
  locale := (d.state_erase _).2

theorem deleteEach_run (inside : p.isRoot = false) {is : List Int}
    (sorted : is.Pairwise fun i j => j < i) (stored : d.get? p.withoutIndex = some (.array xs))
    (within : ∀ i ∈ is, i < xs.length) (given : ∀ i ∈ is, 0 ≤ i → Path.isIndex i = true) :
    ∃ new, d.Written p.withoutIndex (.array (without is xs)) new ∧
      deleteEach p is d =
        match is.find? fun i => i < 0 with
        | none => .ok () new
        | some i => .error (Path.indexFault i) new := by
  induction is generalizing d xs with
  | nil =>
    refine ⟨d, ?_, rfl⟩
    rw [without_of_negative (by simp)]
    exact .refl stored
  | cons i rest ih =>
    obtain ⟨lower, later⟩ := List.pairwise_cons.1 sorted
    rcases atIndex_cases inside i with ⟨other, index⟩ | ⟨n, rfl, _, index⟩
    · have negative : i < 0 := by
        by_contra natural
        rw [given i List.mem_cons_self (Int.not_lt.1 natural)] at other
        cases other
      have all : ∀ j ∈ i :: rest, j < 0 := by
        refine List.forall_mem_cons.2 ⟨negative, fun j mem => ?_⟩
        have := lower j mem
        omega
      refine ⟨d, ?_, ?_⟩
      · rw [without_of_negative all]
        exact .refl stored
      · rw [List.find?_cons_of_pos (by simpa using negative), deleteEach, index]
        rfl
    · have here : n < xs.length := by simpa using within n List.mem_cons_self
      have first := written_erase_element inside stored n
      have still : ∀ j ∈ rest, j < (xs.eraseIdx n).length := by
        intro j mem
        have := lower j mem
        rw [List.length_eraseIdx_of_lt here]
        omega
      obtain ⟨new, written, run⟩ := ih later first.get?_self still fun j mem =>
        given j (List.mem_cons_of_mem _ mem)
      refine ⟨new, ?_, ?_⟩
      · rw [← without_eraseIdx lower here]
        exact first.trans written
      · rw [List.find?_cons_of_neg (by simp), ← run, deleteEach, index]
        rfl

theorem hasPath_element_iff (inside : p.isRoot = false) {n : Nat} :
    d.hasPath (p.element n) = true ↔
      ∃ xs, d.get? p.withoutIndex = some (.array xs) ∧ n < xs.length := by
  rw [Answers.hasPath, Answers.get?, steps_element inside n, Json.get?_append]
  constructor
  · intro found
    obtain ⟨w, read⟩ := Option.isSome_iff_exists.1 found
    obtain ⟨outer, stored, below⟩ := Option.bind_eq_some_iff.1 read
    obtain ⟨child, hc, _⟩ := Option.bind_eq_some_iff.1 below
    obtain ⟨xs, rfl, item⟩ := Json.of_child?_index hc
    exact ⟨xs, stored, (List.getElem?_eq_some_iff.1 item).1⟩
  · rintro ⟨xs, stored, within⟩
    rw [Answers.get?] at stored
    simp [stored, Json.get?, Json.child?, within]

variable {indices : List Int}

theorem deleteEntities_nil (unlocked : d.locked = false) :
    deleteEntities p [] d = .ok false d := by
  rw [deleteEntities, requireUnlocked_bind unlocked, descending_eq_nil_iff.2 rfl]
  rfl

theorem deleteEntities_of_error (unlocked : d.locked = false) {highest : Int} {rest : List Int}
    (order : descending indices = highest :: rest) {e : Fault} (h : p.atIndex highest = .error e) :
    deleteEntities p indices d = .error e d := by
  rw [deleteEntities, requireUnlocked_bind unlocked, order]
  simp only [h]
  rfl

theorem deleteEntities_of_ok (unlocked : d.locked = false) {highest : Int} {rest : List Int}
    (order : descending indices = highest :: rest) {element : Path}
    (h : p.atIndex highest = .ok element) :
    deleteEntities p indices d =
      if d.hasPath element then (deleteEach p (descending indices) >>= fun _ => pure true) d
      else .ok false d := by
  have run : deleteEntities p indices d =
      (if d.hasPath element then deleteEach p (highest :: rest) >>= fun _ => pure true
        else pure false : Edit Bool) d := by
    rw [deleteEntities, requireUnlocked_bind unlocked, order]
    simp only [h]
    rfl
  rw [run, order]
  split <;> rfl

/-- Some index is the highest one, and it is tried first. -/
theorem exists_highest (some : indices ≠ []) : ∃ highest rest,
    descending indices = highest :: rest ∧ highest ∈ indices ∧ ∀ i ∈ indices, i ≤ highest := by
  obtain ⟨highest, rest, order⟩ :=
    List.exists_cons_of_ne_nil fun none => some (descending_eq_nil_iff.1 none)
  have sorted := pairwise_descending indices
  have mem : ∀ i, i ∈ indices ↔ i ∈ highest :: rest := fun i => order ▸ mem_descending.symm
  rw [order] at sorted
  refine ⟨highest, rest, order, (mem highest).2 List.mem_cons_self, fun i hi => ?_⟩
  rcases List.mem_cons.1 ((mem i).1 hi) with rfl | later
  · exact Int.le_refl i
  · exact Int.le_of_lt ((List.pairwise_cons.1 sorted).1 i later)

/-- Everything that a deletion in unlocked answers can come to. -/
theorem deleteEntities_cases (unlocked : d.locked = false) (inside : p.isRoot = false)
    (some : indices ≠ []) :
    ∃ i ∈ indices, (∀ j ∈ indices, j ≤ i) ∧
      (Path.isIndex i = false ∧ deleteEntities p indices d = .error (Path.indexFault i) d ∨
        Path.isIndex i = true ∧
          ((∀ xs, d.get? p.withoutIndex = .some (.array xs) → xs.length ≤ i) ∧
              deleteEntities p indices d = .ok false d ∨
            ∃ xs, d.get? p.withoutIndex = .some (.array xs) ∧ (∀ j ∈ indices, j < xs.length) ∧
              ∃ new, d.Written p.withoutIndex (.array (without indices xs)) new ∧
                deleteEntities p indices d =
                  match (descending indices).find? fun i => i < 0 with
                  | none => .ok true new
                  | .some i => .error (Path.indexFault i) new)) := by
  obtain ⟨highest, rest, order, mem, top⟩ := exists_highest some
  refine ⟨highest, mem, top, ?_⟩
  rcases atIndex_cases inside highest with ⟨other, index⟩ | ⟨n, rfl, given, index⟩
  · exact .inl ⟨other, deleteEntities_of_error unlocked order index⟩
  · refine .inr ⟨given, ?_⟩
    rw [deleteEntities_of_ok unlocked order index]
    cases found : d.hasPath (p.element n) with
    | false =>
      refine .inl ⟨fun xs stored => ?_, rfl⟩
      by_contra longer
      have within : n < xs.length := by omega
      rw [(hasPath_element_iff inside).2 ⟨xs, stored, within⟩] at found
      cases found
    | true =>
      right
      obtain ⟨xs, stored, here⟩ := (hasPath_element_iff inside).1 found
      have within : ∀ j ∈ indices, j < xs.length := by
        intro j hj
        have := top j hj
        omega
      obtain ⟨new, written, run⟩ := deleteEach_run inside (pairwise_descending indices) stored
        (fun i hi => within i (mem_descending.1 hi))
        fun i hi natural => isIndex_of_le natural (top i (mem_descending.1 hi)) given
      have same : without (descending indices) xs = without indices xs :=
        without_congr fun i _ => mem_descending
      refine ⟨xs, stored, within, new, same ▸ written, ?_⟩
      rw [if_pos rfl]
      cases h : (descending indices).find? fun i => i < 0 with
      | none =>
        rw [h] at run
        exact bind_of_ok run _
      | some i =>
        rw [h] at run
        exact bind_of_error run _

/-- Nothing changes where an index has no element. -/
theorem deleteEntities_missing (unlocked : d.locked = false) (inside : p.isRoot = false)
    (natural : ∀ i ∈ indices, 0 ≤ i) (writable : ∀ i ∈ indices, Numeral.isWritable i = true)
    (missing : indices = [] ∨ ∃ i ∈ indices, ∀ xs,
      d.get? p.withoutIndex = some (.array xs) → xs.length ≤ i) :
    deleteEntities p indices d = .ok false d := by
  rcases missing with rfl | ⟨i, mem, absent⟩
  · exact deleteEntities_nil unlocked
  · obtain ⟨j, high, _, ⟨other, _⟩ | ⟨_, ⟨_, run⟩ | ⟨xs, stored, within, _⟩⟩⟩ :=
      deleteEntities_cases unlocked inside (List.ne_nil_of_mem mem)
    · rw [Path.isIndex_of_natural (natural j high), writable j high] at other
      cases other
    · exact run
    · have := absent xs stored
      have := within i mem
      omega

/-- An index that is too long to be written makes the highest one too long, too. -/
theorem deleteEntities_long (unlocked : d.locked = false) (inside : p.isRoot = false)
    (natural : ∀ i ∈ indices, 0 ≤ i) {i : Int} (mem : i ∈ indices)
    (long : Numeral.isWritable i = false) :
    deleteEntities p indices d = .error .numeralTooLong d := by
  obtain ⟨j, high, top, ⟨other, run⟩ | ⟨given, _⟩⟩ :=
    deleteEntities_cases unlocked inside (List.ne_nil_of_mem mem)
  · rwa [Path.indexFault_of_natural (natural j high) other] at run
  · have index := isIndex_of_le (natural i mem) (top i mem) given
    rw [Path.isIndex_of_natural (natural i mem), long] at index
    cases index

end Run

end Edit

open Edit

/-- A child of that name. -/
def child (name : Text) : Json := .object [(Scalar.entityName.name, .text name)]

/-- Answers of three children. -/
def threeChildren : Answers where
  members := [(Profile.applicantKey,
    .object [("children", .array [child "Ada", child "Bob", child "Cy"]), ("note", .text "x")])]
  wellKeyed := by
    refine .object (by decide) ?_
    simp [child, Json.WellKeyed.atom, Json.text, Members.keys]
    decide
  locked := false
  locale := none

/-- Elements go before an index turns out to be negative. -/
structure FailsLate (d : Answers) (p : Path) (indices : List Int) (xs : List Json) : Prop where
  unlocked : d.locked = false
  inside : p.isRoot = false
  stored : d.get? p.withoutIndex = some (.array xs)
  within : ∀ i ∈ indices, i < xs.length
  written : ∀ i ∈ indices, 0 ≤ i → Numeral.isWritable i = true
  positive : ∃ i ∈ indices, 0 ≤ i
  negative : ∃ i ∈ indices, i < 0

/-- The negative index that is tried first is the highest of them. -/
theorem highest_negative {indices : List Int} {i : Int}
    (h : ((descending indices).find? fun i => i < 0) = some i) :
    i ∈ indices ∧ i < 0 ∧ ∀ j ∈ indices, j < 0 → j ≤ i := by
  obtain ⟨negative, before, after, order, natural⟩ := List.find?_eq_some_iff_append.1 h
  have sorted := pairwise_descending indices
  have mem : ∀ j, j ∈ indices ↔ j ∈ before ++ i :: after := fun j => order ▸ mem_descending.symm
  rw [order] at sorted
  refine ⟨(mem i).2 (by simp), by simpa using negative, fun j hj below => ?_⟩
  rcases List.mem_append.1 ((mem j).1 hj) with first | later
  · have := natural j first
    simp at this
    omega
  · rcases List.mem_cons.1 later with rfl | later
    · exact Int.le_refl j
    · have tail := (List.pairwise_append.1 sorted).2.1
      exact Int.le_of_lt ((List.pairwise_cons.1 tail).1 j later)

theorem FailsLate.run {d : Answers} {p : Path} {indices : List Int} {xs : List Json}
    (h : FailsLate d p indices xs) : ∃ i new,
      (i ∈ indices ∧ i < 0 ∧ ∀ j ∈ indices, j < 0 → j ≤ i) ∧
        deleteEntities p indices d = .error (Path.indexFault i) new ∧
        d.Written p.withoutIndex (.array (without indices xs)) new := by
  obtain ⟨n, mem, positive⟩ := h.positive
  obtain ⟨m, negMem, negative⟩ := h.negative
  obtain ⟨i, hi, top, ⟨other, _⟩ | ⟨_, ⟨absent, _⟩ | ⟨ys, here, _, new, written, run⟩⟩⟩ :=
    deleteEntities_cases h.unlocked h.inside (List.ne_nil_of_mem mem)
  · have natural : 0 ≤ i := Int.le_trans positive (top n mem)
    rw [Path.isIndex_of_natural natural, h.written i hi natural] at other
    cases other
  · have := absent xs h.stored
    have := h.within i hi
    omega
  · rw [h.stored] at here
    cases here
    cases found : (descending indices).find? fun i => i < 0 with
    | none =>
      have := List.find?_eq_none.1 found m (mem_descending.2 negMem)
      simp at this
      omega
    | some i =>
      rw [found] at run
      exact ⟨i, new, highest_negative found, run, written⟩

/-- A deletion that fails otherwise has not begun. -/
theorem eq_or_failsLate {d new : Answers} {p : Path} {indices : List Int} {e : Fault}
    (h : deleteEntities p indices d = .error e new) : new = d ∨ ∃ xs, FailsLate d p indices xs := by
  cases unlocked : d.locked with
  | true =>
    rw [deleteEntities, requireUnlocked_bind_of_locked unlocked] at h
    cases h
    exact .inl rfl
  | false =>
    by_cases none : indices = []
    · subst none
      rw [deleteEntities_nil unlocked] at h
      cases h
    cases inside : p.isRoot with
    | true =>
      obtain ⟨highest, rest, order, _⟩ := exists_highest none
      have index : p.atIndex highest = .error .rootIndexed := if_pos inside
      rw [deleteEntities_of_error unlocked order index] at h
      cases h
      exact .inl rfl
    | false =>
      obtain ⟨i, mem, top, ⟨_, run⟩ | ⟨given, ⟨_, run⟩ | ⟨xs, stored, within, _, _, run⟩⟩⟩ :=
        deleteEntities_cases unlocked inside none
      · rw [run] at h
        cases h
        exact .inl rfl
      · rw [run] at h
        cases h
      · right
        cases found : (descending indices).find? fun i => i < 0 with
        | none =>
          rw [run, found] at h
          cases h
        | some j =>
          obtain ⟨negMem, negative, _⟩ := highest_negative found
          refine ⟨xs, unlocked, inside, stored, within, fun k hk natural => ?_,
            ⟨i, mem, Path.natural_of_isIndex given⟩, ⟨j, negMem, negative⟩⟩
          rw [← Path.isIndex_of_natural natural]
          exact isIndex_of_le natural (top k hk) given

/-- A deletion that fails has changed nothing, unless elements have gone before it came to a
negative index. These stay away then, and nothing else changes. -/
theorem failed_deletion_changes_nothing_iff (d : Answers) (p : Path) (indices : List Int) :
    (∀ e new, (deleteEntities p indices).run d = .error e new →
      (new = d ↔ ¬ ∃ xs, FailsLate d p indices xs)) ∧
    ∀ xs, FailsLate d p indices xs → ∃ i new,
      (i ∈ indices ∧ i < 0 ∧ ∀ j ∈ indices, j < 0 → j ≤ i) ∧
        (deleteEntities p indices).run d = .error (Path.indexFault i) new ∧
        new.get? p.withoutIndex = some (.array (without indices xs)) ∧
        Json.SameBut p.withoutIndex.steps d.tree new.tree ∧
        new.locked = d.locked ∧ new.locale = d.locale := by
  constructor
  · intro e new h
    constructor
    · rintro rfl ⟨xs, late⟩
      obtain ⟨i, after, _, run, written⟩ := late.run
      have same : deleteEntities p indices new = .error e new := h
      rw [run] at same
      cases same
      -- fewer elements are left than there were
      obtain ⟨n, mem, positive⟩ := late.positive
      obtain ⟨n, rfl⟩ := Int.eq_ofNat_of_zero_le positive
      have shorter := length_without_lt mem (Int.ofNat_lt.1 (late.within n mem))
      have stored := written.get?_self
      rw [late.stored] at stored
      have whole : xs = without indices xs := Json.array.inj (Option.some.inj stored)
      rw [← whole] at shorter
      exact absurd shorter (Nat.lt_irrefl _)
    · intro early
      rcases eq_or_failsLate h with same | late
      · exact same
      · exact absurd late early
  · intro xs late
    obtain ⟨i, new, negative, run, written⟩ := late.run
    exact ⟨i, new, negative, run, written.get?_self, Json.sameBut_put late.stored written.tree,
      written.locked, written.locale⟩

theorem threeChildren_failsLate : FailsLate threeChildren children [1, -1]
    [child "Ada", child "Bob", child "Cy"] where
  unlocked := rfl
  inside := rfl
  stored := rfl
  within := by decide
  written := by decide
  positive := ⟨1, by decide, by decide⟩
  negative := ⟨-1, by decide, by decide⟩

/-- The second child is gone although the deletion has failed. -/
theorem second_child_lost : ¬ ∀ e new,
    (deleteEntities children [1, -1]).run threeChildren = .error e new → new = threeChildren := by
  intro unchanged
  obtain ⟨i, new, _, run, written⟩ := threeChildren_failsLate.run
  obtain rfl := unchanged _ new run
  cases written.get?_self

end Intake
