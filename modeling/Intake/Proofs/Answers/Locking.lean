import Intake.Answers.Change
import Intake.Proofs.Sequence

set_option autoImplicit false

/-!
# Locked answers

A change that asks first whether the answers are locked fails in locked answers, whatever follows
(`Guarded.bind`). Some changes read what they are given before they ask, so that they may fail for
that reason instead (`Refused`). Only the parts of a name are looked up before anything is asked,
and a part that is there already is not written. No use of locked answers changes them, and by
induction no sequence of uses does.
-/

namespace Intake

namespace Edit

variable {α β : Type}

/-- In locked answers the change fails as such, with nothing changed. -/
def Guarded (x : Edit α) : Prop := ∀ d : Answers, d.locked = true → x d = .error .locked d

/-- In locked answers the change fails with nothing changed: as such, or for a fault of what it is
given, for which it fails in all answers. -/
def Refused (x : Edit α) : Prop :=
  ∀ d : Answers, d.locked = true →
    ∃ e, x d = .error e d ∧ (e = .locked ∨ ∀ other, x other = .error e other)

theorem guarded_requireUnlocked (act : Unit → Edit α) : Guarded (requireUnlocked >>= act) :=
  fun _ h => requireUnlocked_bind_of_locked h act

theorem Guarded.bind {x : Edit α} (h : Guarded x) (f : α → Edit β) : Guarded (x >>= f) :=
  fun d locked => bind_of_error (h d locked) f

theorem Guarded.refused {x : Edit α} (h : Guarded x) : Refused x :=
  fun d locked => ⟨.locked, h d locked, .inl rfl⟩

theorem Refused.bind {x : Edit α} (h : Refused x) (f : α → Edit β) : Refused (x >>= f) := by
  intro d locked
  obtain ⟨e, run, cause⟩ := h d locked
  refine ⟨e, bind_of_error run f, ?_⟩
  rcases cause with rfl | always
  · exact .inl rfl
  · exact .inr fun other => bind_of_error (always other) f

theorem refused_throw (e : Fault) : Refused (throw e : Edit α) :=
  fun _ _ => ⟨e, rfl, .inr fun _ => rfl⟩

/-- What is given is read before the answers are asked. -/
theorem refused_ofExcept {y : Except Fault α} {f : α → Edit β}
    (h : ∀ a, y = .ok a → Refused (f a)) : Refused (ofExcept y >>= f) := by
  cases y with
  | error e => exact refused_throw e
  | ok a => exact h a rfl

/-! ## Single changes -/

theorem guarded_put (p : Path) (v : Json) (hv : v.WellKeyed) : Guarded (put p v hv) :=
  guarded_requireUnlocked _

theorem guarded_putAtom (p : Path) (a : Atom) : Guarded (putAtom p a) := guarded_put p _ _

theorem guarded_clear (p : Path) : Guarded (clear p) := guarded_requireUnlocked _

theorem guarded_clearArray (p : Path) : Guarded (clearArray p) := guarded_requireUnlocked _

theorem guarded_putText (p : Path) (s : Text) : Guarded (putText p s) := by
  unfold putText
  split
  · exact guarded_clear p
  · exact guarded_putAtom p _

theorem refused_clearOr {s : Text} {p : Path} {y : Except Fault α} {f : α → Atom} :
    Refused (if s = "" then clear p else ofExcept y >>= fun a => putAtom p (f a)) := by
  split
  · exact (guarded_clear p).refused
  · exact refused_ofExcept fun a _ => (guarded_putAtom p _).refused

theorem refused_putLong (p : Path) (a : Atom) : Refused (putLong p a) := by
  cases a with
  | text s => exact refused_clearOr
  | int n => exact (guarded_putAtom p _).refused
  | null => exact refused_throw _
  | bool b => exact refused_throw _
  | double x => exact refused_throw _

theorem refused_putLongs (p : Path) (values : List Atom) : Refused (putLongs p values) :=
  refused_ofExcept fun first _ => ((guarded_clearArray first).bind _).refused

theorem refused_putEntities (p : Path) (names : List Text) : Refused (putEntities p names) := by
  cases names with
  | nil => exact (guarded_put p _ _).refused
  | cons name rest =>
    exact refused_ofExcept fun element _ => ((guarded_putAtom _ _).bind _).refused

theorem refused_putScalar (p : Path) (type : Storage) (raw : Text) :
    Refused (putScalar p type raw) := by
  cases type with
  | string => exact (guarded_putText p raw).refused
  | long => exact refused_putLong p (.text raw)
  | date => exact refused_clearOr
  | currencyCents => exact refused_clearOr
  | listOfLongs => exact refused_putLongs p _

end Edit

/-! ## Names -/

/-- Where the parts of a name that are given belong. -/
def NameParts.places (n : NameParts) : List Path :=
  [Profile.firstName] ++ ((n.middle.map fun _ => Profile.middleName).toList ++
    (n.last.map fun _ => Profile.lastName).toList)

namespace Edit

/-- Nothing changes: where something is stored at all these places the change succeeds, and
otherwise it fails as in all locked answers. -/
def Finds (places : List Path) (x : Edit Unit) (d : Answers) : Prop :=
  x d = if ∀ p ∈ places, d.hasPath p = true then .ok () d else .error .locked d

theorem Finds.bind {ps qs : List Path} {x y : Edit Unit} {d : Answers} (first : Finds ps x d)
    (second : Finds qs y d) : Finds (ps ++ qs) (x >>= fun _ => y) d := by
  unfold Finds at *
  by_cases found : ∀ p ∈ ps, d.hasPath p = true
  · rw [if_pos found] at first
    have rest : (∀ p ∈ ps ++ qs, d.hasPath p = true) ↔ ∀ p ∈ qs, d.hasPath p = true := by
      rw [List.forall_mem_append]
      exact and_iff_right found
    rw [bind_of_ok first, second]
    simp only [rest]
  · rw [if_neg found] at first
    have missing : ¬ ∀ p ∈ ps ++ qs, d.hasPath p = true := by
      rw [List.forall_mem_append]
      exact fun all => found all.1
    rw [bind_of_error first, if_neg missing]

theorem finds_putMissing (p : Path) (part : Option Text) {d : Answers} (locked : d.locked = true) :
    Finds (part.map fun _ => p).toList (putMissing p part) d := by
  cases part with
  | none => simp [Finds, putMissing, pure, EStateM.pure]
  | some s =>
    have run : putMissing p (some s) d =
        (if d.hasPath p then pure () else putText p s : Edit Unit) d := rfl
    rw [Finds, run]
    by_cases found : d.hasPath p = true
    · simp [found, pure, EStateM.pure]
    · simp [found, guarded_putText p s d locked]

/-- A name is refused unless all its parts are there already, and then nothing is written. -/
theorem finds_setNameParts (n : NameParts) {d : Answers} (locked : d.locked = true) :
    Finds n.places (setNameParts n) d :=
  (finds_putMissing Profile.firstName (some n.first) locked).bind
    ((finds_putMissing Profile.middleName n.middle locked).bind
      (finds_putMissing Profile.lastName n.last locked))

end Edit

/-! ## Changes -/

namespace Change

/-- The parts of the name that a change is to store, if it is one of names. -/
def nameParts? : Change → Option NameParts
  | setName display => some (.ofDisplayName display)
  | setNameParts n => some n
  | _ => none

theorem refused_run {c : Change} (other : c.nameParts? = none) (h : c ≠ lock) :
    Edit.Refused c.run := by
  cases c with
  | lock => exact absurd rfl h
  | setName display => cases other
  | setNameParts n => cases other
  | setLocale tag => exact ((Edit.guarded_requireUnlocked _).bind _).refused
  | putText p s => exact ((Edit.guarded_putText p s).bind _).refused
  | putLong p a => exact (Edit.refused_putLong p a).bind _
  | putDate p s => exact Edit.refused_clearOr.bind _
  | putCurrency p s => exact Edit.refused_clearOr.bind _
  | putLongs p values => exact (Edit.refused_putLongs p values).bind _
  | putScalar p type raw => exact (Edit.refused_putScalar p type raw).bind _
  | putEntities p names => exact (Edit.refused_putEntities p names).bind _
  | delete p => exact ((Edit.guarded_requireUnlocked _).bind _).refused
  | clearArray p => exact ((Edit.guarded_clearArray p).bind _).refused
  | deleteEntities p indices => exact ((Edit.guarded_requireUnlocked _).bind _).refused
  | clearEntities p => exact ((Edit.guarded_requireUnlocked _).bind _).refused
  | merge other => exact ((Edit.guarded_requireUnlocked _).bind _).refused

theorem run_eq_quietly {c : Change} {n : NameParts} (name : c.nameParts? = some n) :
    c.run = quietly (Edit.setNameParts n) := by
  cases c <;> cases name <;> rfl

theorem run_of_nameParts {c : Change} {n : NameParts} (name : c.nameParts? = some n) {d : Answers}
    (locked : d.locked = true) :
    c.run d = if ∀ p ∈ n.places, d.hasPath p = true then .ok .nothing d else .error .locked d := by
  have found := Edit.finds_setNameParts n locked
  rw [Edit.Finds] at found
  rw [run_eq_quietly name, quietly]
  by_cases all : ∀ p ∈ n.places, d.hasPath p = true
  · rw [if_pos all] at found ⊢
    exact bind_of_ok found _
  · rw [if_neg all] at found ⊢
    exact bind_of_error found _

theorem lock_of_locked {d : Answers} (locked : d.locked = true) : d.lock = d := by
  cases d
  cases locked
  rfl

/-- No change of locked answers has an effect. -/
theorem after_of_locked (c : Change) {d : Answers} (locked : d.locked = true) : c.after d = d := by
  unfold after EStateM.run
  cases name : c.nameParts? with
  | some n =>
    rw [run_of_nameParts name locked]
    by_cases all : ∀ p ∈ n.places, d.hasPath p = true
    · rw [if_pos all]
    · rw [if_neg all]
  | none =>
    by_cases h : c = lock
    · subst h
      exact lock_of_locked locked
    · obtain ⟨e, run, _⟩ := refused_run name h d locked
      rw [run]

end Change

/-- A use of answers: a change, or a question, whose reply depends on them and changes nothing. -/
inductive Use where
  | change (c : Change)
  | ask {α : Type} (reply : Answers → α)

namespace Use

def after : Use → Answers → Answers
  | change c, d => c.after d
  | ask _, d => d

theorem after_of_locked (u : Use) {d : Answers} (locked : d.locked = true) : u.after d = d := by
  cases u with
  | change c => exact c.after_of_locked locked
  | ask reply => rfl

/-- The answers after a sequence of uses. -/
def afterAll (uses : List Use) (d : Answers) : Answers := uses.foldl (fun d u => u.after d) d

theorem afterAll_of_locked (uses : List Use) {d : Answers} (locked : d.locked = true) :
    afterAll uses d = d := by
  induction uses with
  | nil => rfl
  | cons u rest ih => rw [afterAll, List.foldl_cons, u.after_of_locked locked, ← afterAll, ih]

end Use

/-- Answers stay locked and as they are, whatever they are used for after they have been locked. A
change fails then: as in all locked answers, unless it is one of what it is given that makes it fail
in all answers. Only a name whose parts are all there already is accepted, and not written. -/
theorem locked_for_good (d : Answers) (uses : List Use) :
    let locked := Use.afterAll uses (Change.lock.after d)
    locked.locked = true ∧ locked.text = d.text ∧ locked.locale = d.locale ∧
      (∀ c : Change, c.nameParts? = none → c ≠ .lock → ∃ e, c.run.run locked = .error e locked ∧
        (e = .locked ∨ ∀ other, c.run.run other = .error e other)) ∧
      ∀ (c : Change) (n : NameParts), c.nameParts? = some n →
        (c.run.run locked = .error .locked locked ↔ ∃ p ∈ n.places, locked.hasPath p = false) ∧
        (c.run.run locked = .ok .nothing locked ↔ ∀ p ∈ n.places, locked.hasPath p = true) := by
  intro locked
  have same : locked = d.lock := Use.afterAll_of_locked uses rfl
  have isLocked : locked.locked = true := by rw [same]; rfl
  refine ⟨isLocked, by rw [same]; rfl, by rw [same]; rfl, ?_, ?_⟩
  · intro c name h
    exact Change.refused_run name h locked isLocked
  · intro c n name
    have run : c.run.run locked = _ := Change.run_of_nameParts name isLocked
    rw [run]
    by_cases all : ∀ p ∈ n.places, locked.hasPath p = true
    · have none : ¬ ∃ p ∈ n.places, locked.hasPath p = false := by
        rintro ⟨p, mem, missing⟩
        rw [all p mem] at missing
        cases missing
      rw [if_pos all]
      exact ⟨iff_of_false (fun h => nomatch h) none, iff_of_true rfl all⟩
    · have missing : ∃ p ∈ n.places, locked.hasPath p = false := by simpa using all
      rw [if_neg all]
      exact ⟨iff_of_true rfl missing, iff_of_false (fun h => nomatch h) all⟩

/-- Where no first name was given before, none can be given any more. -/
theorem first_name_comes_too_late :
    let locked := Use.afterAll [.change (.setLocale "de"), .ask Answers.text]
      (Change.lock.after .empty)
    (Change.setName "Ada").run.run locked = .error .locked locked := by
  have names := (locked_for_good .empty [.change (.setLocale "de"), .ask Answers.text]).2.2.2.2
  refine (names (.setName "Ada") _ rfl).1.2 ⟨Profile.firstName, List.mem_cons_self, ?_⟩
  rfl

end Intake
