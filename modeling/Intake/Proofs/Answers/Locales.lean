import Intake.Answers.Change
import Intake.Proofs.Answers.Clearing
import Intake.Proofs.Answers.Versions
import Intake.Proofs.Sequence
import Intake.Proofs.Values.Tags

set_option autoImplicit false

/-!
# Where the locale of answers comes from

Only one change touches the locale. For all others that is a property of their parts
(`KeepsLocale`), which a sequence of parts has if each of them does, so that there is one short
lemma for each. New answers have the locale that is given for them, and merged ones that of a
snapshot.
-/

namespace Intake

namespace Edit

variable {α β : Type}

/-- The locale stays, whether the change succeeds or fails. -/
abbrev KeepsLocale (x : Edit α) : Prop := Keeps Answers.locale x

theorem keepsLocale_ofExcept (x : Except Fault α) : KeepsLocale (ofExcept x) := by
  intro d
  cases x <;> rfl

theorem keepsLocale_requireUnlocked : KeepsLocale requireUnlocked := by
  intro d
  unfold requireUnlocked
  split <;> rfl

/-! ## Single changes -/

theorem keepsLocale_store (p : Path) (v : Json) (hv : v.WellKeyed) :
    KeepsLocale (store p v hv) := by
  intro d
  unfold store
  split
  · rfl
  · dsimp only
    split <;> rfl

theorem keepsLocale_put (p : Path) (v : Json) (hv : v.WellKeyed) : KeepsLocale (put p v hv) :=
  keepsLocale_requireUnlocked.bind fun _ => keepsLocale_store p v hv

theorem keepsLocale_putAtom (p : Path) (a : Atom) : KeepsLocale (putAtom p a) :=
  keepsLocale_put p _ _

theorem keepsLocale_erase (p : Path) : KeepsLocale (modify fun d => d.erase p) :=
  Keeps.modify fun d => (d.state_erase p).2

theorem keepsLocale_delete (p : Path) : KeepsLocale (delete p) := by
  refine keepsLocale_requireUnlocked.bind fun _ => ?_
  split
  · exact (Keeps.throw _).bind fun _ => keepsLocale_erase p
  · exact keepsLocale_erase p

theorem keepsLocale_clear (p : Path) : KeepsLocale (clear p) := by
  refine keepsLocale_requireUnlocked.bind fun _ => ?_
  split
  · exact Keeps.pure _
  · exact keepsLocale_delete p

theorem keepsLocale_clearArray (p : Path) : KeepsLocale (clearArray p) := by
  refine keepsLocale_requireUnlocked.bind fun _ => ?_
  split
  · exact (keepsLocale_putAtom _ _).bind fun _ => keepsLocale_delete _
  · exact Keeps.pure _

theorem keepsLocale_putText (p : Path) (s : Text) : KeepsLocale (putText p s) := by
  unfold putText
  split
  · exact keepsLocale_clear p
  · exact keepsLocale_putAtom p _

theorem keepsLocale_clearOr {s : Text} {p : Path} {y : Except Fault α} {f : α → Atom} :
    KeepsLocale (if s = "" then clear p else ofExcept y >>= fun a => putAtom p (f a)) := by
  split
  · exact keepsLocale_clear p
  · exact (keepsLocale_ofExcept y).bind fun _ => keepsLocale_putAtom p _

theorem keepsLocale_putLong (p : Path) (a : Atom) : KeepsLocale (putLong p a) := by
  unfold putLong
  split
  · exact keepsLocale_clearOr
  · exact keepsLocale_putAtom p _
  · exact Keeps.throw _

theorem keepsLocale_putLongsFrom (p : Path) (i : Nat) (values : List Atom) :
    KeepsLocale (putLongsFrom p i values) := by
  induction values generalizing i with
  | nil => exact Keeps.pure _
  | cons a rest ih =>
    refine (keepsLocale_ofExcept _).bind fun q => ?_
    exact (keepsLocale_putLong q a).bind fun _ => ih (i + 1)

theorem keepsLocale_putLongs (p : Path) (values : List Atom) : KeepsLocale (putLongs p values) := by
  refine (keepsLocale_ofExcept _).bind fun q => ?_
  exact (keepsLocale_clearArray q).bind fun _ => keepsLocale_putLongsFrom p 0 values

theorem keepsLocale_putScalar (p : Path) (type : Storage) (raw : Text) :
    KeepsLocale (putScalar p type raw) := by
  cases type with
  | string => exact keepsLocale_putText p raw
  | long => exact keepsLocale_putLong p (.text raw)
  | date => exact keepsLocale_clearOr
  | currencyCents => exact keepsLocale_clearOr
  | listOfLongs => exact keepsLocale_putLongs p _

theorem keepsLocale_putEntitiesFrom (p : Path) (i : Nat) (names : List Text) :
    KeepsLocale (putEntitiesFrom p i names) := by
  induction names generalizing i with
  | nil => exact Keeps.pure _
  | cons name rest ih =>
    refine (keepsLocale_ofExcept _).bind fun q => ?_
    exact (keepsLocale_putAtom _ _).bind fun _ => ih (i + 1)

theorem keepsLocale_putEntities (p : Path) (names : List Text) :
    KeepsLocale (putEntities p names) := by
  unfold putEntities
  split
  · exact keepsLocale_put p _ _
  · exact keepsLocale_putEntitiesFrom p 0 names

theorem keepsLocale_deleteEach (p : Path) (indices : List Int) :
    KeepsLocale (deleteEach p indices) := by
  induction indices with
  | nil => exact Keeps.pure _
  | cons i rest ih =>
    refine (keepsLocale_ofExcept _).bind fun q => ?_
    exact (keepsLocale_erase q).bind fun _ => ih

theorem keepsLocale_deleteEntities (p : Path) (indices : List Int) :
    KeepsLocale (deleteEntities p indices) := by
  refine keepsLocale_requireUnlocked.bind fun _ => ?_
  split
  · exact Keeps.pure _
  · refine (keepsLocale_ofExcept _).bind fun q => Keeps.get.bind fun d => ?_
    split
    · exact (keepsLocale_deleteEach p _).bind fun _ => Keeps.pure _
    · exact Keeps.pure _

theorem keepsLocale_clearEntities (p : Path) : KeepsLocale (clearEntities p) := by
  refine keepsLocale_requireUnlocked.bind fun _ => Keeps.get.bind fun d => ?_
  refine (keepsLocale_ofExcept _).bind fun names => ?_
  split
  · exact (keepsLocale_delete _).bind fun _ => Keeps.pure _
  · exact Keeps.pure _

theorem keepsLocale_putMissing (p : Path) (part : Option Text) :
    KeepsLocale (putMissing p part) := by
  cases part with
  | none => exact Keeps.pure _
  | some s =>
    refine Keeps.get.bind fun d => ?_
    split
    · exact Keeps.pure _
    · exact keepsLocale_putText p s

theorem keepsLocale_setNameParts (n : NameParts) : KeepsLocale (setNameParts n) :=
  (keepsLocale_putMissing _ _).bind fun _ =>
    (keepsLocale_putMissing _ _).bind fun _ => keepsLocale_putMissing _ _

theorem keepsLocale_merge (other : Answers) : KeepsLocale (merge other) := by
  intro d
  cases locked : d.locked with
  | true => rw [merge, requireUnlocked_bind_of_locked locked, endState]
  | false =>
    have merged := merged_merge locked other
    rw [EStateM.run] at merged
    generalize merge other d = result at merged ⊢
    cases merged with
    | whole _ written => exact written.locale
    | cut _ _ locale => exact locale

/-- The one change of the locale leaves the locale of the text that it is given, or fails. -/
theorem tag_of_setLocale {s : Text} {d : Answers} {l : Locale}
    (h : (endState (setLocale s d)).locale = some l) : d.locale = some l ∨ l.tag = s := by
  cases locked : d.locked with
  | true =>
    rw [setLocale, requireUnlocked_bind_of_locked locked] at h
    exact .inl h
  | false =>
    rw [setLocale, requireUnlocked_bind locked] at h
    cases parsed : Locale.parse s with
    | error e =>
      rw [parsed] at h
      exact .inl h
    | ok chosen =>
      rw [parsed] at h
      cases h
      exact .inr (Locale.parse_eq_ok_iff.1 parsed).2

end Edit

/-! ## All changes -/

namespace Change

open Edit

/-- Every change but that of the locale keeps it. -/
theorem keepsLocale_run {c : Change} (h : ∀ tag, c ≠ .setLocale tag) : KeepsLocale c.run := by
  have quietly {x : Edit Unit} (keeps : KeepsLocale x) : KeepsLocale (Change.quietly x) :=
    keeps.bind fun _ => Keeps.pure _
  cases c with
  | setLocale tag => exact absurd rfl (h tag)
  | lock => exact quietly (Keeps.modify fun _ => rfl)
  | setName display => exact quietly (keepsLocale_setNameParts _)
  | setNameParts parts => exact quietly (keepsLocale_setNameParts parts)
  | putText p s => exact quietly (keepsLocale_putText p s)
  | putLong p a => exact quietly (keepsLocale_putLong p a)
  | putDate p s => exact quietly keepsLocale_clearOr
  | putCurrency p s => exact quietly keepsLocale_clearOr
  | putLongs p values => exact quietly (keepsLocale_putLongs p values)
  | putScalar p type raw => exact quietly (keepsLocale_putScalar p type raw)
  | putEntities p names => exact quietly (keepsLocale_putEntities p names)
  | delete p => exact quietly (keepsLocale_delete p)
  | clearArray p => exact quietly (keepsLocale_clearArray p)
  | deleteEntities p indices =>
    exact (keepsLocale_deleteEntities p indices).bind fun _ => Keeps.pure _
  | clearEntities p => exact (keepsLocale_clearEntities p).bind fun _ => Keeps.pure _
  | merge other => exact (keepsLocale_merge other).bind fun _ => Keeps.pure _

theorem after_eq_endState (c : Change) (d : Answers) : c.after d = endState (c.run d) := by
  unfold after EStateM.run
  cases c.run d <;> rfl

/-- The locale after a change is the one before it, or the one that the change gives. -/
theorem locale_after {c : Change} {d : Answers} {l : Locale} (h : (c.after d).locale = some l) :
    d.locale = some l ∨ c = .setLocale l.tag := by
  rw [after_eq_endState] at h
  by_cases gives : ∃ s, c = .setLocale s
  · obtain ⟨s, rfl⟩ := gives
    have same : endState (run (.setLocale s) d) = endState (Edit.setLocale s d) := by
      cases done : Edit.setLocale s d with
      | ok u new => exact congrArg endState (bind_of_ok done _)
      | error e new => exact congrArg endState (bind_of_error done _)
    rw [same] at h
    exact (tag_of_setLocale h).imp_right fun tag => congrArg setLocale tag.symm
  · exact .inl ((keepsLocale_run (not_exists.1 gives) d).symm.trans h)

end Change

/-! ## New answers -/

namespace Answers

theorem locale_ofText {text : Text} {d : Answers} (h : ofText text = .ok d) : d.locale = none := by
  unfold ofText at h
  split at h
  · cases h
  · cases h
  · cases h
    rfl
  · cases h

/-- The locale of new answers is the one that is given. -/
theorem locale_create {text locale : Option Text} {d : Answers} {l : Locale}
    (made : create text locale = .ok d) (h : d.locale = some l) : locale = some l.tag := by
  obtain ⟨e, bare, placed⟩ := create_cases made
  have none : e.locale = none := by
    rcases bare with rfl | ⟨s, read⟩
    · rfl
    · exact locale_ofText read
  rcases placed with ⟨_, rfl⟩ | ⟨s, chosen, rfl, parsed, rfl⟩
  · rw [none] at h
    cases h
  · cases h
    rw [(Locale.parse_eq_ok_iff.1 parsed).2]

/-- The locale of merged answers is that of one of the snapshots. -/
theorem locale_ofVersions {snapshots : List Answers} {merged : Answers} {report : ConflictReport}
    {l : Locale} (made : ofVersions snapshots = .ok (merged, report))
    (h : merged.locale = some l) : ∃ s ∈ snapshots, s.locale = some l := by
  obtain ⟨_, comes⟩ := ofVersions_eq_ok_iff.1 made
  obtain rfl : (mergedVersions snapshots).1 = merged := congrArg Prod.fst comes
  have first : (mergedVersions snapshots).1.locale = firstLocale snapshots :=
    (state_mergedEach _ 0 snapshots).2
  rw [first] at h
  exact List.exists_of_findSome?_eq_some h

end Answers
end Intake
