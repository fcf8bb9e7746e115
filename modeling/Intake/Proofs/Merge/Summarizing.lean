import Mathlib.Data.List.Induction
import Mathlib.Data.List.Nodup
import Mathlib.Data.List.Perm.Subperm
import Mathlib.Data.Prod.Lex
import Mathlib.Order.Bounds.Basic
import Intake.Proofs.Answers.Versions

set_option autoImplicit false

/-!
# Summing up a report

The conflicts of a report are read version by version, and in each version from the first to the
last. A path is listed when it comes up for the first time. `FirstsOf` holds of the list all along:
`FirstsOf.read_old` and `FirstsOf.read_new` are the step to the next conflict, which stands behind
those that have been read, and `firstsOf_eraseDups` is the induction over all of them. What is
listed, in which order and how often follows from it, and how long the list is.
-/

namespace Intake

/-! ## Texts read in the order of their places -/

section Reading

variable {σ : Type} [PartialOrder σ] {entries : List (σ × Text)} {seen : List Text} {t u : Text}
  {p q : σ}

/-- A text comes up for the first time at a place. -/
def ComesUpAt (entries : List (σ × Text)) (t : Text) (p : σ) : Prop :=
  IsLeast {q | (q, t) ∈ entries} p

/-- What is read later does not matter to a text that has come up. -/
theorem ComesUpAt.concat (h : ComesUpAt entries t p) (behind : ∀ e ∈ entries, e.1 < q) :
    ComesUpAt (entries ++ [(q, u)]) t p := by
  obtain ⟨here, least⟩ := h
  refine ⟨List.mem_append_left _ here, fun p' mem => ?_⟩
  rcases List.mem_append.1 mem with earlier | last
  · exact least earlier
  · cases List.mem_singleton.1 last
    exact (behind _ here).le

theorem comesUpAt_concat_of_new (new : ∀ e ∈ entries, e.2 ≠ t) :
    ComesUpAt (entries ++ [(q, t)]) t q := by
  refine ⟨List.mem_append_right _ List.mem_cons_self, fun p mem => ?_⟩
  rcases List.mem_append.1 mem with earlier | last
  · exact absurd rfl (new _ earlier)
  · cases List.mem_singleton.1 last
    exact le_rfl

/-- The texts of some entries are listed in the order in which they come up. -/
structure FirstsOf (entries : List (σ × Text)) (seen : List Text) : Prop where
  listed : ∀ e ∈ entries, e.2 ∈ seen
  comesUp : ∀ t ∈ seen, ∃ p, ComesUpAt entries t p
  inOrder : seen.Pairwise fun t u => ∃ p q, ComesUpAt entries t p ∧ ComesUpAt entries u q ∧ p < q

namespace FirstsOf

theorem nil : FirstsOf ([] : List (σ × Text)) [] :=
  ⟨nofun, nofun, List.Pairwise.nil⟩

section Next

variable (h : FirstsOf entries seen) (behind : ∀ e ∈ entries, e.1 < q)

include h behind

theorem comesUp_before (mem : u ∈ seen) : ∃ p, ComesUpAt (entries ++ [(q, t)]) u p ∧ p < q := by
  obtain ⟨p, up⟩ := h.comesUp u mem
  exact ⟨p, up.concat behind, behind _ up.1⟩

theorem inOrder_concat : seen.Pairwise fun u v => ∃ p p',
    ComesUpAt (entries ++ [(q, t)]) u p ∧ ComesUpAt (entries ++ [(q, t)]) v p' ∧ p < p' := by
  refine h.inOrder.imp ?_
  rintro u v ⟨p, p', first, second, lt⟩
  exact ⟨p, p', first.concat behind, second.concat behind, lt⟩

/-- A text that is listed is not listed again. -/
theorem read_old (old : t ∈ seen) : FirstsOf (entries ++ [(q, t)]) seen where
  listed := List.forall_mem_append.2 ⟨h.listed, List.forall_mem_singleton.2 old⟩
  comesUp _ mem := (h.comesUp_before behind mem).imp fun _ => And.left
  inOrder := h.inOrder_concat behind

/-- A text that is not listed yet comes up behind those that are. -/
theorem read_new (new : t ∉ seen) : FirstsOf (entries ++ [(q, t)]) (seen ++ [t]) := by
  have own : ComesUpAt (entries ++ [(q, t)]) t q := by
    apply comesUpAt_concat_of_new
    rintro e mem rfl
    exact new (h.listed e mem)
  refine ⟨List.forall_mem_append.2 ⟨fun e mem => ?_, ?_⟩,
    List.forall_mem_append.2 ⟨fun u mem => ?_, ?_⟩,
    List.pairwise_append.2 ⟨h.inOrder_concat behind, List.pairwise_singleton _ _, fun u mem => ?_⟩⟩
  · exact List.mem_append_left _ (h.listed e mem)
  · exact List.forall_mem_singleton.2 (List.mem_append_right _ List.mem_cons_self)
  · exact (h.comesUp_before behind mem).imp fun _ => And.left
  · exact List.forall_mem_singleton.2 ⟨q, own⟩
  · obtain ⟨p, up, lt⟩ := h.comesUp_before behind mem
    exact List.forall_mem_singleton.2 ⟨p, q, up, own, lt⟩

end Next

theorem mem_iff (h : FirstsOf entries seen) : t ∈ seen ↔ t ∈ entries.map Prod.snd := by
  rw [List.mem_map]
  constructor
  · intro mem
    obtain ⟨p, here, _⟩ := h.comesUp t mem
    exact ⟨(p, t), here, rfl⟩
  · rintro ⟨e, mem, rfl⟩
    exact h.listed e mem

theorem nodup (h : FirstsOf entries seen) : seen.Nodup := by
  refine h.inOrder.imp ?_
  rintro t _ ⟨p, q, first, second, lt⟩ rfl
  exact lt.ne (first.unique second)

end FirstsOf

theorem eraseDups_concat (ts : List Text) (t : Text) :
    (ts ++ [t]).eraseDups = if t ∈ ts.eraseDups then ts.eraseDups else ts.eraseDups ++ [t] := by
  rw [List.eraseDups_append]
  by_cases old : t ∈ ts <;> simp [List.removeAll, List.eraseDups_cons, old]

theorem firstsOf_eraseDups (entries : List (σ × Text))
    (ordered : entries.Pairwise fun e f => e.1 < f.1) :
    FirstsOf entries (entries.map Prod.snd).eraseDups := by
  induction entries using List.reverseRecOn with
  | nil => exact .nil
  | append_singleton entries e ih =>
    obtain ⟨earlier, _, behind⟩ := List.pairwise_append.1 ordered
    have firsts := ih earlier
    have last : ∀ f ∈ entries, f.1 < e.1 := fun f mem => behind f mem e List.mem_cons_self
    rw [List.map_append, List.map_singleton, eraseDups_concat]
    split
    · next old => exact firsts.read_old last old
    · next new => exact firsts.read_new last new

end Reading

/-- Once each text is listed only once, there are no more than before, and as many exactly if none
was there twice. -/
theorem length_le_and_eq_iff_nodup {listed all : List Text} (once : listed.Nodup)
    (same : ∀ t, t ∈ listed ↔ t ∈ all) :
    listed.length ≤ all.length ∧ (listed.length = all.length ↔ all.Nodup) := by
  have within : listed.Subperm all := once.subperm fun t mem => (same t).1 mem
  refine ⟨within.length_le, fun length => ?_, fun nodup => ?_⟩
  · have perm : listed.Perm all := within.perm_of_length_le length.ge
    exact perm.nodup_iff.1 once
  · exact ((List.perm_ext_iff_of_nodup once nodup).2 same).length_eq

theorem pairwise_zipIdx {α : Type} (xs : List α) : xs.zipIdx.Pairwise fun x y => x.2 < y.2 := by
  have positions : (xs.zipIdx.map Prod.snd).Pairwise (· < ·) := by
    rw [List.zipIdx_map_snd]
    exact List.pairwise_lt_range'
  exact List.pairwise_map.1 positions

namespace ConflictReport

variable {r : ConflictReport} {t : Text} {p : Nat ×ₗ Nat}

/-! ## The places of a report -/

/-- A text stands at a place of a report, which is a version and a position in its conflicts. -/
def StandsAt (r : ConflictReport) (t : Text) (p : Nat ×ₗ Nat) : Prop :=
  ∃ v, r.versions[(ofLex p).1]? = some v ∧ v.conflicts[(ofLex p).2]? = some t

/-- A text stands at a place, but in no earlier version and at no earlier position of the same
version. -/
def FirstAt (r : ConflictReport) (t : Text) (p : Nat ×ₗ Nat) : Prop :=
  IsLeast {q | r.StandsAt t q} p

/-- The conflicts with their places, in the order in which they are read. -/
def entries (r : ConflictReport) : List ((Nat ×ₗ Nat) × Text) :=
  r.versions.zipIdx.flatMap fun v => v.1.conflicts.zipIdx.map fun t => (toLex (v.2, t.2), t.1)

theorem mem_entries : (p, t) ∈ r.entries ↔ r.StandsAt t p := by
  simp only [entries, List.mem_flatMap, List.mem_map, Prod.exists, List.mk_mem_zipIdx_iff_getElem?,
    StandsAt]
  constructor
  · rintro ⟨v, i, version, u, j, conflict, same⟩
    cases same
    exact ⟨v, version, conflict⟩
  · rintro ⟨v, version, conflict⟩
    exact ⟨v, _, version, t, _, conflict, rfl⟩

theorem pairwise_entries (r : ConflictReport) : r.entries.Pairwise fun e f => e.1 < f.1 := by
  refine List.pairwise_flatMap.2 ⟨fun v _ => ?_, ?_⟩
  · refine List.pairwise_map.2 ((pairwise_zipIdx _).imp fun lt => ?_)
    exact Prod.Lex.toLex_lt_toLex.2 (.inr ⟨rfl, lt⟩)
  · refine (pairwise_zipIdx _).imp fun lt e he f hf => ?_
    obtain ⟨_, _, rfl⟩ := List.mem_map.1 he
    obtain ⟨_, _, rfl⟩ := List.mem_map.1 hf
    exact Prod.Lex.toLex_lt_toLex.2 (.inl lt)

theorem texts_entries (r : ConflictReport) : r.entries.map Prod.snd = r.conflicts := by
  have version (v : VersionConflicts × Nat) :
      (v.1.conflicts.zipIdx.map fun t => ((toLex (v.2, t.2) : Nat ×ₗ Nat), t.1)).map Prod.snd =
        v.1.conflicts := by
    rw [List.map_map]
    exact List.zipIdx_map_fst 0 v.1.conflicts
  simp only [entries, List.map_flatMap, version]
  rw [← List.flatMap_map Prod.fst VersionConflicts.conflicts, List.zipIdx_map_fst, conflicts]

/-! ## What is listed -/

theorem firstsOf_conflictedPaths (r : ConflictReport) : FirstsOf r.entries r.conflictedPaths := by
  rw [conflictedPaths, ← r.texts_entries]
  exact firstsOf_eraseDups r.entries r.pairwise_entries

theorem comesUpAt_entries : ComesUpAt r.entries t p ↔ r.FirstAt t p := by
  simp only [ComesUpAt, FirstAt, mem_entries]

theorem total_eq (r : ConflictReport) : r.total = r.conflicts.length := by
  obtain ⟨versions⟩ := r
  induction versions with
  | nil => rfl
  | cons v versions ih =>
    simp only [total, conflicts] at ih ⊢
    rw [List.foldr_cons, ih, List.flatMap_cons, List.length_append]

theorem mem_conflictedPaths : t ∈ r.conflictedPaths ↔ t ∈ r.conflicts := by
  rw [r.firstsOf_conflictedPaths.mem_iff, texts_entries]

theorem conflictedPaths_eq_nil_iff : r.conflictedPaths = [] ↔ r.conflicts = [] := by
  simp only [List.eq_nil_iff_forall_not_mem, mem_conflictedPaths]

theorem nodup_conflicts_iff :
    r.conflicts.Nodup ↔ ∀ t p q, r.StandsAt t p → r.StandsAt t q → p = q := by
  have places : r.entries.Nodup :=
    r.pairwise_entries.imp fun lt same => lt.ne (congrArg Prod.fst same)
  rw [← texts_entries, List.nodup_map_iff_inj_on places]
  constructor
  · intro distinct t p q first second
    exact congrArg Prod.fst (distinct _ (mem_entries.2 first) _ (mem_entries.2 second) rfl)
  · rintro once ⟨p, t⟩ first ⟨q, _⟩ second rfl
    rw [once t p q (mem_entries.1 first) (mem_entries.1 second)]

end ConflictReport

open ConflictReport Answers

/-- A report sums up its conflicts. The conflicted paths are the texts in the conflicts of the
versions, without repetitions and in the order in which they come up when the versions are read in
order. There are none exactly if there are no conflicts. There are never more than conflicts, and as
many exactly if no text stands at two places. The report on a merge has a version for each
snapshot, and the versions are numbered from zero on. There is one unless a snapshot holds an
integer that cannot be written. -/
theorem conflicted_paths_sum_up :
    (∀ r : ConflictReport,
      r.conflictedPaths.Nodup ∧
      (∀ t, t ∈ r.conflictedPaths ↔ ∃ v ∈ r.versions, t ∈ v.conflicts) ∧
      (r.conflictedPaths.Pairwise fun t u => ∃ p q, r.FirstAt t p ∧ r.FirstAt u q ∧ p < q) ∧
      (r.conflictedPaths = [] ↔ r.hasConflicts = false) ∧
      r.conflictedPaths.length ≤ r.total ∧
      (r.conflictedPaths.length = r.total ↔
        ∀ t p q, r.StandsAt t p → r.StandsAt t q → p = q)) ∧
    ∀ snapshots,
      (∀ merged report, ofVersions snapshots = .ok (merged, report) →
        report.versions.map VersionConflicts.version = List.range snapshots.length) ∧
      ((∀ s ∈ snapshots, s.tree.isWritable = true) →
        ∃ merged report, ofVersions snapshots = .ok (merged, report)) := by
  refine ⟨fun r => ?_, fun snapshots => ⟨fun _ _ => versions_ofVersions, exists_ofVersions⟩⟩
  have firsts := r.firstsOf_conflictedPaths
  obtain ⟨le, eq_iff⟩ := length_le_and_eq_iff_nodup firsts.nodup fun _ => mem_conflictedPaths
  refine ⟨firsts.nodup, fun t => ?_, ?_, ?_, ?_, ?_⟩
  · rw [mem_conflictedPaths, conflicts, List.mem_flatMap]
  · simpa only [comesUpAt_entries] using firsts.inOrder
  · rw [conflictedPaths_eq_nil_iff, hasConflicts, total_eq, decide_eq_false_iff_not,
      List.length_pos_iff, not_not]
  · rw [total_eq]
    exact le
  · rw [total_eq, eq_iff, nodup_conflicts_iff]

/-- A path that comes up in two versions is listed where the earlier one has it. -/
example : (⟨[⟨0, []⟩, ⟨1, ["b", "a"]⟩, ⟨2, ["a", "c"]⟩]⟩ : ConflictReport).conflictedPaths =
    ["b", "a", "c"] := by decide

end Intake
