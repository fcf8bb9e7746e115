import Intake.Merge.Versions
import Intake.Proofs.Answers.Merging
import Intake.Proofs.Json.Copying

set_option autoImplicit false

/-!
# Merging versions

Merged answers begin with the applicant, and the applicant is an object: `Rooted` holds of empty
answers and is kept by every merge. Rooted answers that are merged into empty ones come out as they
are (`merge_empty_of_rooted`), so that a merge of versions may stop and go on later. Answers in
which something else stands for the applicant clash with the empty answers that a merge starts with,
and are the only ones of which the first snapshot does not keep everything.
-/

namespace Intake

namespace Answers

/-- The answers that a merge starts with. -/
def start (locale : Option Locale) : Answers := { empty with locale := locale }

theorem extends_merge (d s : Answers) : d.tree.Extends (d.merge s).1.tree :=
  tree_merge d s ▸ Json.extends_merge d.wellKeyed s.wellKeyed

/-! ## One snapshot after the other -/

/-- What merging snapshots comes to when it is carried through. -/
def mergedEach (d : Answers) : Nat → List Answers → Answers × List VersionConflicts
  | _, [] => (d, [])
  | i, s :: rest =>
    let r := d.merge s
    let t := mergedEach r.1 (i + 1) rest
    (t.1, ⟨i, r.2.map fun keys => (Path.ofKeys keys).text⟩ :: t.2)

theorem mergedEach_cons (d : Answers) (i : Nat) (s : Answers) (rest : List Answers) :
    mergedEach d i (s :: rest) = ((mergedEach (d.merge s).1 (i + 1) rest).1,
      ⟨i, (d.merge s).2.map fun keys => (Path.ofKeys keys).text⟩ ::
        (mergedEach (d.merge s).1 (i + 1) rest).2) := rfl

theorem mergedEach_append (d : Answers) (i : Nat) (xs ys : List Answers) :
    mergedEach d i (xs ++ ys) =
      let first := mergedEach d i xs
      let second := mergedEach first.1 (i + xs.length) ys
      (second.1, first.2 ++ second.2) := by
  induction xs generalizing d i with
  | nil => rfl
  | cons s xs ih =>
    have place : i + (s :: xs).length = i + 1 + xs.length := by simp; omega
    rw [List.cons_append, mergedEach_cons, ih, mergedEach_cons, place]
    rfl

/-- The numbers given to snapshots are all that depends on where counting starts. -/
theorem mergedEach_shift (d : Answers) (i j : Nat) (ss : List Answers) :
    (mergedEach d i ss).1 = (mergedEach d j ss).1 ∧
      (mergedEach d i ss).2.map VersionConflicts.conflicts =
        (mergedEach d j ss).2.map VersionConflicts.conflicts := by
  induction ss generalizing d i j with
  | nil => exact ⟨rfl, rfl⟩
  | cons s ss ih =>
    obtain ⟨answers, conflicts⟩ := ih (d.merge s).1 (i + 1) (j + 1)
    rw [mergedEach_cons, mergedEach_cons]
    refine ⟨answers, ?_⟩
    rw [List.map_cons, List.map_cons, conflicts]

theorem versions_mergedEach (d : Answers) (i : Nat) (ss : List Answers) :
    (mergedEach d i ss).2.map VersionConflicts.version = List.range' i ss.length := by
  induction ss generalizing d i with
  | nil => rfl
  | cons s ss ih =>
    rw [mergedEach_cons, List.map_cons, ih, List.length_cons, List.range'_succ]

/-- The locale takes no part in a merge. -/
theorem mergedEach_locale (d : Answers) (l : Option Locale) (i : Nat) (ss : List Answers) :
    mergedEach { d with locale := l } i ss =
      ({ (mergedEach d i ss).1 with locale := l }, (mergedEach d i ss).2) := by
  induction ss generalizing d i with
  | nil => rfl
  | cons s ss ih =>
    have step : ({ d with locale := l } : Answers).merge s =
        ({ (d.merge s).1 with locale := l }, (d.merge s).2) := rfl
    rw [mergedEach_cons, step, ih, mergedEach_cons]

theorem state_mergedEach (d : Answers) (i : Nat) (ss : List Answers) :
    (mergedEach d i ss).1.locked = d.locked ∧ (mergedEach d i ss).1.locale = d.locale := by
  induction ss generalizing d i with
  | nil => exact ⟨rfl, rfl⟩
  | cons s ss ih => exact ih (d.merge s).1 (i + 1)

/-- None of the merges of some snapshots breaks off. -/
def ShowsEach (d : Answers) : List Answers → Prop
  | [] => True
  | s :: rest => d.tree.ClashesShow s.tree ∧ (d.merge s).1.ShowsEach rest

theorem mergeEach_of_shows {d : Answers} (unlocked : d.locked = false) (i : Nat)
    {ss : List Answers} (shown : d.ShowsEach ss) : mergeEach d i ss = .ok (mergedEach d i ss) := by
  induction ss generalizing d i with
  | nil => rfl
  | cons s ss ih =>
    obtain ⟨here, later⟩ := shown
    have still : (d.merge s).1.locked = false := unlocked
    simp only [mergeEach, Edit.merge_run unlocked here, ih still (i + 1) later, mergedEach_cons,
      List.map_map]
    rfl

theorem mergeEach_of_hides {d : Answers} (unlocked : d.locked = false) (i : Nat)
    {ss : List Answers} (hidden : ¬ d.ShowsEach ss) :
    mergeEach d i ss = .error .numeralTooLong := by
  induction ss generalizing d i with
  | nil => exact absurd trivial hidden
  | cons s ss ih =>
    by_cases here : d.tree.ClashesShow s.tree
    · have still : (d.merge s).1.locked = false := unlocked
      have later : ¬ (d.merge s).1.ShowsEach ss := fun shown => hidden ⟨here, shown⟩
      simp only [mergeEach, Edit.merge_run unlocked here, ih still (i + 1) later]
      rfl
    · obtain ⟨new, run⟩ := Edit.merge_breaks_off unlocked here
      simp only [mergeEach, run]

theorem showsEach_append (d : Answers) (i : Nat) (xs ys : List Answers) :
    d.ShowsEach (xs ++ ys) ↔ d.ShowsEach xs ∧ (mergedEach d i xs).1.ShowsEach ys := by
  induction xs generalizing d i with
  | nil => simp [ShowsEach, mergedEach]
  | cons s xs ih => simp [ShowsEach, mergedEach_cons, ih _ (i + 1), and_assoc]

theorem showsEach_locale (d : Answers) (l : Option Locale) (ss : List Answers) :
    ({ d with locale := l } : Answers).ShowsEach ss ↔ d.ShowsEach ss := by
  induction ss generalizing d with
  | nil => exact Iff.rfl
  | cons s ss ih => exact and_congr_right fun _ => ih (d.merge s).1

/-- Snapshots that can be written can be merged. -/
theorem showsEach_of_isWritable {d : Answers} {ss : List Answers} (hd : d.tree.isWritable = true)
    (hs : ∀ s ∈ ss, s.tree.isWritable = true) : d.ShowsEach ss := by
  induction ss generalizing d with
  | nil => trivial
  | cons s ss ih =>
    obtain ⟨here, later⟩ := List.forall_mem_cons.1 hs
    refine ⟨Json.clashesShow_of_isWritable hd here, ih ?_ later⟩
    rw [tree_merge]
    exact Json.isWritable_merge _ _ hd here

theorem lastsIn_mergedEach (d : Answers) (i : Nat) (ss : List Answers) :
    d.tree.LastsIn (mergedEach d i ss).1.tree := by
  induction ss generalizing d i with
  | nil => exact (Json.Extends.refl d.wellKeyed).lastsIn
  | cons s ss ih => exact (extends_merge d s).lastsIn.trans (ih (d.merge s).1 (i + 1))

/-! ## Answers that begin with the applicant -/

def Rooted (d : Answers) : Prop :=
  ∃ ms others, d.members = (Profile.applicantKey, .object ms) :: others

theorem rooted_start (locale : Option Locale) : (start locale).Rooted := ⟨[], [], rfl⟩

theorem Rooted.of_extends {d e : Answers} (h : d.Rooted) (grown : d.tree.Extends e.tree) :
    e.Rooted := by
  obtain ⟨ms, others, hd⟩ := h
  rw [tree, hd] at grown
  cases grown with
  | object keys values =>
    have first : Members.get? Profile.applicantKey
        ((Profile.applicantKey, Json.object ms) :: others) = some (.object ms) := by
      rw [Members.get?_cons, if_pos rfl]
    obtain ⟨w, hw⟩ := Members.exists_get?_of_prefix keys first
    obtain ⟨ns, rfl⟩ : ∃ ns, w = .object ns := by
      cases values _ _ _ first hw
      exact ⟨_, rfl⟩
    cases he : e.members with
    | nil =>
      rw [he] at hw
      cases hw
    | cons m more =>
      obtain ⟨k, v⟩ := m
      rw [he] at keys hw
      obtain ⟨here, _⟩ := List.cons_prefix_cons.1 keys
      obtain rfl : Profile.applicantKey = k := here
      rw [Members.get?_cons, if_pos rfl] at hw
      cases hw
      exact ⟨ns, more, he⟩

theorem Rooted.mergedEach {d : Answers} (h : d.Rooted) (i : Nat) (ss : List Answers) :
    (mergedEach d i ss).1.Rooted := by
  induction ss generalizing d i with
  | nil => exact h
  | cons s ss ih => exact ih (h.of_extends (extends_merge d s)) (i + 1)

/-- Rooted answers are copied into empty ones, the order of their keys included. -/
theorem merge_start_of_rooted {d : Answers} (h : d.Rooted) (locale : Option Locale) :
    (start locale).merge d = ({ d with locked := false, locale := locale }, []) := by
  obtain ⟨ms, others, hd⟩ := h
  have wellKeyed := d.wellKeyed
  rw [hd] at wellKeyed
  have applicant : (Json.object ms).WellKeyed := wellKeyed.members _ List.mem_cons_self
  have copied : Json.mergeMembers [(Profile.applicantKey, .object [])] d.members =
      (d.members, []) := by
    rw [hd, Json.mergeMembers]
    have nodup : (Members.keys ([(Profile.applicantKey, Json.object ms)] ++ others)).Nodup :=
      wellKeyed.nodup_keys
    simp [Members.get?_cons, Json.merge_emptyObject applicant, Members.set,
      Json.mergeMembers_of_new nodup]
  have members : ((start locale).merge d).1.tree = d.tree :=
    congrArg (fun r : Members × List KeyPath => Json.object r.1) copied
  have conflicts : ((start locale).merge d).2 = [] := congrArg Prod.snd copied
  exact Prod.ext (eq_of_tree members rfl rfl) conflicts

/-! ## Going on with merged answers -/

/-- What a merge of versions comes to when it is carried through. -/
def mergedVersions (ss : List Answers) : Answers × ConflictReport :=
  let r := mergedEach (start (firstLocale ss)) 0 ss
  (r.1, ⟨r.2⟩)

theorem mergedVersions_eq (ss : List Answers) :
    mergedVersions ss = ((mergedEach (start (firstLocale ss)) 0 ss).1,
      ⟨(mergedEach (start (firstLocale ss)) 0 ss).2⟩) := rfl

/-- Nothing in a merge of some versions breaks off. -/
def VersionsShow (ss : List Answers) : Prop := (start none).ShowsEach ss

theorem ofVersions_of_shows {ss : List Answers} (shown : VersionsShow ss) :
    ofVersions ss = .ok (mergedVersions ss) := by
  have each := (showsEach_locale (start none) (firstLocale ss) ss).2 shown
  rw [ofVersions]
  exact congrArg (Except.map fun r => (r.1, (⟨r.2⟩ : ConflictReport)))
    (mergeEach_of_shows rfl 0 each)

theorem ofVersions_of_hides {ss : List Answers} (hidden : ¬ VersionsShow ss) :
    ofVersions ss = .error .numeralTooLong := by
  have each := mt (showsEach_locale (start none) (firstLocale ss) ss).1 hidden
  rw [ofVersions]
  exact congrArg (Except.map fun r => (r.1, (⟨r.2⟩ : ConflictReport)))
    (mergeEach_of_hides rfl 0 each)

theorem ofVersions_eq_ok_iff {ss : List Answers} {r : Answers × ConflictReport} :
    ofVersions ss = .ok r ↔ VersionsShow ss ∧ mergedVersions ss = r := by
  by_cases shown : VersionsShow ss
  · simp [ofVersions_of_shows shown, shown]
  · simp [ofVersions_of_hides shown, shown]

theorem ofVersions_eq_error_iff {ss : List Answers} {e : Fault} :
    ofVersions ss = .error e ↔ ¬ VersionsShow ss ∧ e = .numeralTooLong := by
  by_cases shown : VersionsShow ss
  · simp [ofVersions_of_shows shown, shown]
  · simp [ofVersions_of_hides shown, shown, eq_comm]

/-- Snapshots that can be written can always be merged. -/
theorem exists_ofVersions {ss : List Answers} (h : ∀ s ∈ ss, s.tree.isWritable = true) :
    ∃ merged report, ofVersions ss = .ok (merged, report) :=
  ⟨_, _, ofVersions_of_shows (showsEach_of_isWritable (by decide) h)⟩

theorem isWritable_ofText {text : Text} {d : Answers} (h : ofText text = .ok d) :
    d.tree.isWritable = true := by
  unfold ofText at h
  split at h
  · cases h
  · cases h
  · next ms read =>
    cases h
    exact Json.isWritable_read read
  · cases h

/-- New answers are the empty ones or those in a text, with the locale that is given. -/
theorem create_cases {text locale : Option Text} {d : Answers} (h : create text locale = .ok d) :
    ∃ e, (e = empty ∨ ∃ s, ofText s = .ok e) ∧
      (locale = none ∧ d = e ∨
        ∃ s l, locale = some s ∧ Locale.parse s = .ok l ∧ d = { e with locale := some l }) := by
  unfold create at h
  split at h
  · cases h
  · next e read =>
    have bare : e = empty ∨ ∃ s, ofText s = .ok e := by
      cases text with
      | none => exact .inl (Except.ok.inj read).symm
      | some s => exact .inr ⟨s, read⟩
    refine ⟨e, bare, ?_⟩
    split at h
    · exact .inl ⟨rfl, (Except.ok.inj h).symm⟩
    · next s =>
      obtain ⟨l, parsed, rfl⟩ := exists_of_map_ok h
      exact .inr ⟨s, l, rfl, parsed, rfl⟩

/-- Answers that have just been made can be written, so that they can be merged. -/
theorem isWritable_create {text locale : Option Text} {d : Answers}
    (h : create text locale = .ok d) : d.tree.isWritable = true := by
  obtain ⟨e, bare, placed⟩ := create_cases h
  have plain : e.tree.isWritable = true := by
    rcases bare with rfl | ⟨s, read⟩
    · decide
    · exact isWritable_ofText read
  rcases placed with ⟨_, rfl⟩ | ⟨_, _, _, _, rfl⟩ <;> exact plain

theorem firstLocale_merged (xs ys : List Answers) :
    firstLocale ((mergedVersions xs).1 :: ys) = firstLocale (xs ++ ys) := by
  have locale : (mergedVersions xs).1.locale = firstLocale xs :=
    (state_mergedEach (start (firstLocale xs)) 0 xs).2
  unfold firstLocale at locale ⊢
  rw [List.findSome?_cons, locale, List.findSome?_append]
  cases xs.findSome? Answers.locale <;> rfl

theorem versions_mergedVersions (ss : List Answers) :
    (mergedVersions ss).2.versions.map VersionConflicts.version = List.range ss.length := by
  rw [mergedVersions_eq, versions_mergedEach, List.range_eq_range']

theorem versions_ofVersions {ss : List Answers} {merged : Answers} {report : ConflictReport}
    (made : ofVersions ss = .ok (merged, report)) :
    report.versions.map VersionConflicts.version = List.range ss.length := by
  obtain ⟨_, comes⟩ := ofVersions_eq_ok_iff.1 made
  obtain rfl : (mergedVersions ss).2 = report := congrArg Prod.snd comes
  exact versions_mergedVersions ss

theorem length_conflicts_mergedVersions (ss : List Answers) :
    ((mergedVersions ss).2.versions.map VersionConflicts.conflicts).length = ss.length := by
  have numbered := congrArg List.length (versions_mergedVersions ss)
  rw [List.length_map, List.length_range] at numbered
  rw [List.length_map, numbered]

/-- What a merge of versions comes to in two stages. -/
theorem mergedVersions_append (xs ys : List Answers) :
    mergedVersions (xs ++ ys) =
      let merged : Answers := { (mergedVersions xs).1 with locale := firstLocale (xs ++ ys) }
      let rest := mergedEach merged xs.length ys
      (rest.1, ⟨(mergedVersions xs).2.versions ++ rest.2⟩) := by
  have first : mergedEach (start (firstLocale (xs ++ ys))) 0 xs =
      ({ (mergedVersions xs).1 with locale := firstLocale (xs ++ ys) },
        (mergedVersions xs).2.versions) :=
    mergedEach_locale (start (firstLocale xs)) (firstLocale (xs ++ ys)) 0 xs
  rw [mergedVersions_eq, mergedEach_append, first, Nat.zero_add]

theorem mergedVersions_merged (xs ys : List Answers) :
    mergedVersions ((mergedVersions xs).1 :: ys) =
      let merged : Answers := { (mergedVersions xs).1 with locale := firstLocale (xs ++ ys) }
      let rest := mergedEach merged 1 ys
      (rest.1, ⟨⟨0, []⟩ :: rest.2⟩) := by
  have rooted : (mergedVersions xs).1.Rooted := (rooted_start _).mergedEach 0 xs
  have unlocked : (mergedVersions xs).1.locked = false := (state_mergedEach _ 0 xs).1
  rw [mergedVersions_eq, mergedEach_cons, merge_start_of_rooted rooted, firstLocale_merged,
    ← unlocked]
  rfl

theorem mergedVersions_resume (xs ys : List Answers) :
    let merged := (mergedVersions xs).1
    let whole := mergedVersions (xs ++ ys)
    let resumed := mergedVersions (merged :: ys)
    resumed.1 = whole.1 ∧ resumed.1.text = whole.1.text ∧ resumed.1.locale = whole.1.locale ∧
      whole.2.versions.map VersionConflicts.version = List.range (xs ++ ys).length ∧
      resumed.2.versions.map VersionConflicts.version = List.range (merged :: ys).length ∧
      resumed.2.versions.map VersionConflicts.conflicts =
        [] :: (whole.2.versions.map VersionConflicts.conflicts).drop xs.length := by
  intro merged whole resumed
  have stages : whole = _ := mergedVersions_append xs ys
  have later : resumed = _ := mergedVersions_merged xs ys
  obtain ⟨answers, conflicts⟩ :=
    mergedEach_shift { merged with locale := firstLocale (xs ++ ys) } 1 xs.length ys
  have same : resumed.1 = whole.1 := by
    rw [stages, later]
    exact answers
  refine ⟨same, congrArg text same, congrArg locale same, versions_mergedVersions _,
    versions_mergedVersions _, ?_⟩
  rw [stages, later, List.map_append, List.drop_left' (length_conflicts_mergedVersions xs),
    ← conflicts]
  rfl

theorem versionsShow_append (xs ys : List Answers) : VersionsShow (xs ++ ys) ↔
    VersionsShow xs ∧ (mergedVersions xs).1.ShowsEach ys := by
  have rest : (mergedVersions xs).1 =
      { (mergedEach (start none) 0 xs).1 with locale := firstLocale xs } :=
    congrArg Prod.fst (mergedEach_locale (start none) (firstLocale xs) 0 xs)
  rw [rest, showsEach_locale]
  exact showsEach_append _ 0 xs ys

/-- Merged answers never break off when they are merged first. -/
theorem versionsShow_merged (xs ys : List Answers) :
    VersionsShow ((mergedVersions xs).1 :: ys) ↔ (mergedVersions xs).1.ShowsEach ys := by
  have rooted : (mergedVersions xs).1.Rooted := (rooted_start _).mergedEach 0 xs
  have unlocked : (mergedVersions xs).1.locked = false := (state_mergedEach _ 0 xs).1
  have copied := merge_start_of_rooted rooted none
  have none : (start none).tree.ClashesShow (mergedVersions xs).1.tree := by
    apply Json.clashesShow_of_no_conflicts (mergedVersions xs).1.wellKeyed
    exact (conflicts_merge _ _).symm.trans (congrArg Prod.snd copied)
  rw [VersionsShow, ShowsEach, and_iff_right none, copied, ← unlocked]
  exact showsEach_locale _ _ ys

/-- A merge of versions may stop and go on later. Merged answers that are merged with further
snapshots come to the answers, the locale and the conflicts of each further snapshot to which all
of them together come, and have no conflicts themselves. A report lists the snapshots in order. Both
ways break off for the same snapshots, and never if all integers in them can be written. -/
theorem merge_resumes (xs ys : List Answers) :
    ((∀ s ∈ xs ++ ys, s.tree.isWritable = true) →
      ∃ merged report, ofVersions xs = .ok (merged, report) ∧
        (∃ whole, ofVersions (xs ++ ys) = .ok whole) ∧
        ∃ resumed, ofVersions (merged :: ys) = .ok resumed) ∧
    ∀ merged report, ofVersions xs = .ok (merged, report) →
      (∀ e, ofVersions (merged :: ys) = .error e ↔ ofVersions (xs ++ ys) = .error e) ∧
      ∀ whole resumed, ofVersions (xs ++ ys) = .ok whole → ofVersions (merged :: ys) = .ok resumed →
        resumed.1 = whole.1 ∧ resumed.1.text = whole.1.text ∧ resumed.1.locale = whole.1.locale ∧
          whole.2.versions.map VersionConflicts.version = List.range (xs ++ ys).length ∧
          resumed.2.versions.map VersionConflicts.version = List.range (merged :: ys).length ∧
          resumed.2.versions.map VersionConflicts.conflicts =
            [] :: (whole.2.versions.map VersionConflicts.conflicts).drop xs.length := by
  constructor
  · intro writable
    have whole : VersionsShow (xs ++ ys) := showsEach_of_isWritable (by decide) writable
    obtain ⟨first, rest⟩ := (versionsShow_append xs ys).1 whole
    have resumed := (versionsShow_merged xs ys).2 rest
    exact ⟨_, _, ofVersions_of_shows first, ⟨_, ofVersions_of_shows whole⟩,
      _, ofVersions_of_shows resumed⟩
  · intro merged report made
    obtain ⟨first, comes⟩ := ofVersions_eq_ok_iff.1 made
    obtain rfl : merged = (mergedVersions xs).1 := (congrArg Prod.fst comes).symm
    constructor
    · intro e
      rw [ofVersions_eq_error_iff, ofVersions_eq_error_iff, versionsShow_merged,
        versionsShow_append, and_iff_right first]
    · intro whole resumed run again
      obtain ⟨_, rfl⟩ := ofVersions_eq_ok_iff.1 run
      obtain ⟨_, rfl⟩ := ofVersions_eq_ok_iff.1 again
      exact mergedVersions_resume xs ys

/-! ## The first snapshot -/

/-- Nothing but an object stands where the applicant belongs. -/
def hasRoom (d : Answers) : Bool := (d.get? Profile.applicant).all Json.isObject

theorem get?_applicant (d : Answers) :
    d.get? Profile.applicant = Members.get? Profile.applicantKey d.members :=
  Option.bind_fun_some (Members.get? Profile.applicantKey d.members)

theorem Rooted.get?_applicant {d : Answers} (h : d.Rooted) :
    ∃ ms, d.get? Profile.applicant = some (.object ms) := by
  obtain ⟨ms, others, hd⟩ := h
  refine ⟨ms, ?_⟩
  rw [Answers.get?_applicant, hd, Members.get?_cons, if_pos rfl]

/-- The members of a snapshot that is merged into empty answers are copied, but for what stands
where the applicant belongs. -/
theorem get?_merge_start (s : Answers) (locale : Option Locale) (k : Text) :
    Members.get? k ((start locale).merge s).1.members =
      if k = Profile.applicantKey then
        Json.mergeSlot (some (.object [])) (s.get? Profile.applicant)
      else Members.get? k s.members := by
  have slot : Members.get? k ((start locale).merge s).1.members =
      Json.mergeSlot (Members.get? k (start locale).members) (Members.get? k s.members) :=
    Json.get?_mergeMembers s.wellKeyed.nodup_keys _ k
  have here : Members.get? k (start locale).members =
      if Profile.applicantKey = k then some (.object []) else none := Members.get?_cons _ _ _
  rw [slot, here]
  by_cases hk : k = Profile.applicantKey
  · rw [if_pos hk, if_pos hk.symm, get?_applicant, hk]
  · rw [if_neg hk, if_neg fun e => hk e.symm]
    cases Members.get? k s.members <;> rfl

theorem lastsIn_merge_start {s : Answers} (room : s.hasRoom) (locale : Option Locale) :
    s.tree.LastsIn ((start locale).merge s).1.tree := by
  apply Json.lastsIn_of_members
  intro k v hv
  rw [get?_merge_start]
  split
  · next hk =>
    subst hk
    rw [← get?_applicant] at hv
    rw [hasRoom, hv] at room
    cases v with
    | object ms =>
      rw [hv, Json.mergeSlot, Json.merge_emptyObject (s.wellKeyed_get? hv)]
    | _ => cases room
  · exact hv

theorem conflicts_merge_emptyObject {v : Json} (h : v.WellKeyed) :
    (Json.merge (.object []) v).2 = [] ↔ v.isObject := by
  cases v with
  | object ms => simp [Json.merge_emptyObject h, Json.isObject]
  | _ => simp [Json.merge, Json.isObject]

theorem memberConflicts_start {m : Text × Json} (h : m.2.WellKeyed) (locale : Option Locale) :
    Json.memberConflicts (start locale).members m = [] ↔
      (m.1 = Profile.applicantKey → m.2.isObject) := by
  have stored : Members.get? m.1 (start locale).members =
      if Profile.applicantKey = m.1 then some (.object []) else none := Members.get?_cons _ _ _
  rw [Json.memberConflicts, stored]
  by_cases hm : m.1 = Profile.applicantKey
  · rw [if_pos hm.symm]
    simp only [List.map_eq_nil_iff, hm, true_implies]
    exact conflicts_merge_emptyObject h
  · rw [if_neg fun e => hm e.symm]
    exact iff_of_true rfl fun e => absurd e hm

theorem conflicts_merge_start (s : Answers) (locale : Option Locale) :
    ((start locale).merge s).2 = [] ↔ s.hasRoom := by
  have conflicts : ((start locale).merge s).2 =
      s.members.flatMap (Json.memberConflicts (start locale).members) :=
    Json.conflicts_mergeMembers s.wellKeyed.nodup_keys _
  rw [conflicts, List.flatMap_eq_nil_iff, hasRoom, get?_applicant,
    Members.all_get?_iff s.wellKeyed.nodup_keys]
  apply forall₂_congr
  intro m mem
  exact memberConflicts_start (s.wellKeyed.members m mem) locale

theorem mergedVersions_wins_iff (s : Answers) (rest : List Answers) :
    ((mergedVersions (s :: rest)).2.versions.head? = some ⟨0, []⟩ ↔ s.hasRoom) ∧
      (s.tree.LastsIn (mergedVersions (s :: rest)).1.tree ↔ s.hasRoom) := by
  have fold := mergedEach_cons (start (firstLocale (s :: rest))) 0 s rest
  constructor
  · rw [mergedVersions_eq, fold, ← conflicts_merge_start s (firstLocale (s :: rest))]
    simp
  · constructor
    · intro lasts
      have rooted : (mergedVersions (s :: rest)).1.Rooted :=
        (rooted_start _).mergedEach 0 (s :: rest)
      obtain ⟨ms, applicant⟩ := rooted.get?_applicant
      cases hv : s.get? Profile.applicant with
      | none => rw [hasRoom, hv]; rfl
      | some v =>
        obtain ⟨x, hx, lastsAs⟩ := lasts _ v hv
        rw [get?] at applicant
        rw [applicant] at hx
        cases hx
        cases lastsAs
        rw [hasRoom, hv]
        rfl
    · intro room
      rw [mergedVersions_eq, fold]
      exact (lastsIn_merge_start room _).trans (lastsIn_mergedEach _ 1 rest)

/-- The first snapshot has no conflicts, and all its values last in the merged answers, exactly if
nothing but an object stands where the applicant belongs. Anything else there clashes with the
empty answers that a merge starts with and is lost. Snapshots that can be written are always
merged. -/
theorem first_snapshot_wins_iff (s : Answers) (rest : List Answers) :
    ((∀ t ∈ s :: rest, t.tree.isWritable = true) →
      ∃ merged report, ofVersions (s :: rest) = .ok (merged, report)) ∧
    ∀ merged report, ofVersions (s :: rest) = .ok (merged, report) →
      (report.versions.head? = some ⟨0, []⟩ ↔ s.hasRoom) ∧
        (s.tree.LastsIn merged.tree ↔ s.hasRoom) := by
  refine ⟨exists_ofVersions, fun merged report made => ?_⟩
  obtain ⟨_, comes⟩ := ofVersions_eq_ok_iff.1 made
  cases comes
  exact mergedVersions_wins_iff s rest

/-- Answers of a text where the applicant belongs. -/
def misplacedName : Answers where
  members := [(Profile.applicantKey, .text "Ada")]
  wellKeyed := by
    refine .object (by decide) ?_
    simp [Json.WellKeyed.atom, Json.text]
  locked := false
  locale := none

/-- A single snapshot is the first one, and its only value is lost. -/
theorem misplacedName_is_lost :
    ∃ merged report, ofVersions [misplacedName] = .ok (merged, report) ∧
      report.versions = [⟨0, ["applicant"]⟩] ∧
      misplacedName.get? Profile.applicant = some (.text "Ada") ∧
      merged.get? Profile.applicant = some (.object []) :=
  ⟨_, _, rfl, rfl, rfl, rfl⟩

end Answers
end Intake
