import Intake.Answers.Write
import Intake.Profile
import Intake.Proofs.Json.Put

set_option autoImplicit false

/-!
# Writing into answers

A write changes what stands at its path and adds what it needs to get there, and a write of one
value that fails changes nothing. Both are read off `Edit.put_cases`, which lists what a write in
place can come to.
-/

namespace Intake

/-- `new` is `d` with `v` written at a path. -/
structure Answers.Written (d : Answers) (p : Path) (v : Json) (new : Answers) : Prop where
  tree : Json.put p.steps v (some d.tree) = .ok new.tree
  locked : new.locked = d.locked
  locale : new.locale = d.locale

theorem Path.segments_eq_nil {p : Path} (root : p.isRoot = true) : p.segments = [] := by
  simpa [isRoot] using root

theorem Path.segments_ne_nil {p : Path} (inside : p.isRoot = false) : p.segments ≠ [] := by
  simpa [isRoot] using inside

theorem Path.category_blocked (p : Path) (b : Json.Blocked) :
    (p.blocked b).category = .placement := by
  unfold Path.blocked
  split
  · split <;> rfl
  · rfl

namespace Edit

theorem put_ok {d : Answers} {p : Path} {v t : Json} (unlocked : d.locked = false)
    (inside : p.segments ≠ []) (hv : v.WellKeyed)
    (h : Json.put p.steps v (some d.tree) = .ok t) :
    ∃ new, put p v hv d = .ok () new ∧ d.Written p v new := by
  obtain ⟨new, run, rfl, locked, locale⟩ := store_ok inside hv h
  refine ⟨new, ?_, h, locked, locale⟩
  exact (requireUnlocked_bind unlocked _).trans run

/-- Everything that a write can come to. -/
theorem put_cases (p : Path) (v : Json) (hv : v.WellKeyed) (d : Answers) :
    (d.locked = true ∧ put p v hv d = .error .locked d) ∨
      d.locked = false ∧
        ((p.segments = [] ∧ put p v hv d = .error .rootParent d) ∨
          (p.segments ≠ [] ∧ ∃ new, put p v hv d = .ok () new ∧ d.Written p v new) ∨
          (p.segments ≠ [] ∧ ∃ b, put p v hv d = .error (p.blocked b) d ∧
            Json.put p.steps v (some d.tree) = .error b)) := by
  cases hl : d.locked with
  | true => exact .inl ⟨rfl, requireUnlocked_bind_of_locked hl _⟩
  | false =>
    have run : put p v hv d = store p v hv d := requireUnlocked_bind hl _
    right
    refine ⟨rfl, ?_⟩
    by_cases hp : p.segments = []
    · exact .inl ⟨hp, run.trans (store_root hp v hv d)⟩
    · right
      cases hw : Json.put p.steps v (some d.tree) with
      | ok t => exact .inl ⟨hp, put_ok hl hp hv hw⟩
      | error b => exact .inr ⟨hp, b, run.trans (store_error hp hv hw), rfl⟩

theorem written_of_put_ok {p : Path} {v : Json} {hv : v.WellKeyed} {d new : Answers} {u : Unit}
    (h : put p v hv d = .ok u new) : d.Written p v new := by
  rcases put_cases p v hv d with
    ⟨_, run⟩ | ⟨_, ⟨_, run⟩ | ⟨_, after, run, written⟩ | ⟨_, b, run, _⟩⟩
  · rw [run] at h
    cases h
  · rw [run] at h
    cases h
  · rw [run] at h
    cases h
    exact written
  · rw [run] at h
    cases h

/-- In unlocked answers a write fails exactly where a value on its way stops it. -/
theorem put_eq_error_iff {p : Path} {v : Json} (hv : v.WellKeyed) {d new : Answers} {f : Fault}
    (unlocked : d.locked = false) (inside : p.isRoot = false) :
    put p v hv d = .error f new ↔ new = d ∧ ∃ b, f = p.blocked b ∧
      Json.put p.steps v (some d.tree) = .error b := by
  rcases put_cases p v hv d with
    ⟨locked, _⟩ | ⟨_, ⟨none, _⟩ | ⟨_, after, run, written⟩ | ⟨_, b, run, hb⟩⟩
  · rw [locked] at unlocked
    cases unlocked
  · exact absurd none (Path.segments_ne_nil inside)
  · rw [run, written.tree]
    constructor
    · intro h
      cases h
    · rintro ⟨_, b, _, h⟩
      cases h
  · rw [run, hb]
    constructor
    · intro h
      cases h
      exact ⟨rfl, b, rfl, rfl⟩
    · rintro ⟨rfl, c, rfl, hc⟩
      cases hc
      rfl

theorem eq_of_put_error {p : Path} {v : Json} {hv : v.WellKeyed} {d new : Answers} {f : Fault}
    (h : put p v hv d = .error f new) : new = d := by
  rcases put_cases p v hv d with ⟨_, run⟩ | ⟨_, ⟨_, run⟩ | ⟨_, after, run, _⟩ | ⟨_, b, run, _⟩⟩
  all_goals
    rw [run] at h
    cases h
  all_goals rfl

theorem eq_of_delete_error {p : Path} {d new : Answers} {f : Fault}
    (h : delete p d = .error f new) : new = d := by
  cases hl : d.locked with
  | true =>
    rw [delete, requireUnlocked_bind_of_locked hl] at h
    cases h
    rfl
  | false =>
    rw [delete, requireUnlocked_bind hl] at h
    split at h <;> cases h
    rfl

theorem eq_of_clear_error {p : Path} {d new : Answers} {f : Fault}
    (h : clear p d = .error f new) : new = d := by
  cases hl : d.locked with
  | true =>
    rw [clear, requireUnlocked_bind_of_locked hl] at h
    cases h
    rfl
  | false =>
    rw [clear, requireUnlocked_bind hl] at h
    split at h
    · cases h
    · exact eq_of_delete_error h

end Edit

/-- Writing is exact and local. The value is at its path afterwards, and every place independent of
the path keeps its value. A new place independent of the path is an element before the one that an
array on the way is indexed with: an empty object, or null if the path ends there. Objects on the
way keep their keys in order and gain at most the next key of the path, at the end. -/
theorem put_exact_and_local (d new : Answers) (p : Path) (v : Json) (hv : v.WellKeyed)
    (h : (Edit.put p v hv).run d = .ok () new) :
    new.get? p = some v ∧
    (∀ q w, Json.Independent p.steps q → d.tree.get? q = some w → new.tree.get? q = some w) ∧
    (∀ q w, Json.Independent p.steps q → d.tree.get? q = none → new.tree.get? q = some w →
      ∃ pre i rest j, p.steps = pre ++ .index i :: rest ∧ q = pre ++ [.index j] ∧
        (Json.itemsOf (d.tree.get? pre)).length ≤ j ∧ j < i ∧
        w = if rest = [] then .null else .object []) ∧
    (∀ pre, pre <+: p.steps → pre ≠ p.steps →
      (∀ ms, d.tree.get? pre = some (.object ms) → ∃ ns, new.tree.get? pre = some (.object ns)) ∧
      ∀ ns, new.tree.get? pre = some (.object ns) → ∃ k, pre ++ [.key k] <+: p.steps ∧
        Members.keys ns = Json.withKey k (Members.keys (Json.membersOf (d.tree.get? pre)))) ∧
    new.locked = d.locked ∧ new.locale = d.locale := by
  have written := Edit.written_of_put_ok h
  refine ⟨Json.get?_put_self written.tree, ?_, ?_, ?_, written.locked, written.locale⟩
  · intro q w free hw
    exact Json.get?_put_of_independent written.tree free hw
  · intro q w free absent hw
    obtain ⟨pre, i, rest, j, hp, hq, bound, before, hf⟩ :=
      Json.filler_of_get?_put written.tree free absent hw
    refine ⟨pre, i, rest, j, hp, hq, bound, before, ?_⟩
    rw [hf]
    cases rest <;> rfl
  · intro pre way proper
    constructor
    · intro ms hm
      exact Json.object_put written.tree way proper hm
    · intro ns hn
      exact Json.keys_put written.tree way proper hn

/-- The name of a child behind two that are not stored yet. -/
def thirdChildName : Path := ((Profile.applicant.field "children").element 2).field "name"

theorem put_at_thirdChildName : ∃ new,
    (Edit.put thirdChildName (.atom (.text "Ada")) (.atom _)).run Answers.empty = .ok () new ∧
      new.get? thirdChildName = some (.atom (.text "Ada")) ∧ new.locked = false := by
  refine ⟨_, rfl, ?_⟩
  have h := put_exact_and_local Answers.empty _ thirdChildName (.atom (.text "Ada")) (.atom _) rfl
  exact ⟨h.1, h.2.2.2.2.1⟩

/-! ## Single values -/

/-- A value as it is given to be written. -/
inductive FormInput where
  | text (s : Text)
  | long (a : Atom)
  | date (s : Text)
  | dollars (s : Text)

namespace FormInput

def run (p : Path) : FormInput → Edit Unit
  | text s => Edit.putText p s
  | long a => Edit.putLong p a
  | date s => Edit.putDate p s
  | dollars s => Edit.putCurrency p s

/-- The empty text means that nothing is to be stored. -/
def readText (parse : Text → Except Fault Atom) (s : Text) : Except Fault (Option Atom) :=
  if s = "" then .ok none else (parse s).map some

def read : FormInput → Except Fault (Option Atom)
  | text s => readText (fun s => .ok (.text s)) s
  | long (.text s) => readText (fun s => (Long.parse s).map .int) s
  | long (.int n) => .ok (some (.int n))
  | long a => .error (.notInteger a)
  | date s => readText (fun s => (CalendarDate.parseMillis s).map .int) s
  | dollars s => readText (fun s => (Currency.parse s).map fun a => .int a.cents) s

/-- What is done once an input has been read. -/
def write (p : Path) : Except Fault (Option Atom) → Edit Unit
  | .error f => throw f
  | .ok none => Edit.clear p
  | .ok (some a) => Edit.putAtom p a

theorem write_readText {α : Type} (p : Path) (parse : Text → Except Fault α) (atom : α → Atom)
    (s : Text) : write p (readText (fun s => (parse s).map atom) s) =
      if s = "" then Edit.clear p
      else Edit.ofExcept (parse s) >>= fun a => Edit.putAtom p (atom a) := by
  unfold readText
  split
  · rfl
  · dsimp only
    cases parse s <;> rfl

/-- Every input is read before anything else happens. -/
theorem run_eq_write (p : Path) (e : FormInput) : e.run p = write p e.read := by
  cases e with
  | text s =>
    simp only [run, Edit.putText, read, readText]
    split <;> rfl
  | long a =>
    cases a with
    | text s => exact (write_readText p Long.parse .int s).symm
    | _ => rfl
  | date s => exact (write_readText p CalendarDate.parseMillis .int s).symm
  | dollars s => exact (write_readText p Currency.parse (fun a => .int a.cents) s).symm

end FormInput

/-- Writing one value is all or nothing. If it fails, the answers are as they were, and so is their
text. In unlocked answers a value that can be read is refused, as misplaced, exactly if on the way
to its path, before the last step, there is a value that is not null and of the wrong kind: no
object where a key comes next, or no array where an index does. -/
theorem input_all_or_nothing (e : FormInput) (p : Path) (d : Answers) :
    (∀ f new, (e.run p).run d = .error f new → new = d) ∧
    ∀ a, d.locked = false → p.isRoot = false → e.read = .ok (some a) →
      (∀ f new, (e.run p).run d = .error f new → f.category = .placement) ∧
      ((∃ f new, (e.run p).run d = .error f new) ↔
        ∃ pre s rest w, p.steps = pre ++ s :: rest ∧ d.tree.get? pre = some w ∧
          w.isNull = false ∧ s.fits w = false) := by
  rw [FormInput.run_eq_write]
  constructor
  · intro f new h
    cases hr : e.read with
    | error g =>
      rw [hr] at h
      cases h
      rfl
    | ok stored =>
      rw [hr] at h
      cases stored with
      | none => exact Edit.eq_of_clear_error h
      | some a => exact Edit.eq_of_put_error h
  · intro a unlocked inside hr
    rw [hr]
    have refused : ∀ f new, Edit.putAtom p a d = .error f new ↔ new = d ∧ ∃ b, f = p.blocked b ∧
        Json.put p.steps (.atom a) (some d.tree) = .error b := fun f new =>
      Edit.put_eq_error_iff (.atom a) unlocked inside
    constructor
    · intro f new h
      obtain ⟨_, b, rfl, _⟩ := (refused f new).1 h
      exact p.category_blocked b
    · constructor
      · rintro ⟨f, new, h⟩
        obtain ⟨_, b, _, hb⟩ := (refused f new).1 h
        obtain ⟨pre, s, rest, w, way, hw, ⟨stored, unfit⟩, _⟩ := Json.put_error_iff.1 hb
        exact ⟨pre, s, rest, w, way, hw, stored, unfit⟩
      · rintro ⟨pre, s, rest, w, way, hw, stored, unfit⟩
        have hb : Json.put p.steps (.atom a) (some d.tree) = .error ⟨pre.length, w.kind⟩ :=
          Json.put_error_iff.2 ⟨pre, s, rest, w, way, hw, ⟨stored, unfit⟩, rfl⟩
        exact ⟨_, d, (refused _ d).2 ⟨rfl, _, rfl, hb⟩⟩

/-- The applicant is an object, so that no element of it can be written. -/
theorem input_refused_at_applicant :
    Answers.empty.locked = false ∧ (Profile.applicant.element 0).isRoot = false ∧
      (FormInput.text "Ada").read = .ok (some (.text "Ada")) ∧
      ∃ f new, ((FormInput.text "Ada").run (Profile.applicant.element 0)).run Answers.empty =
        .error f new ∧ f.category = .placement ∧ new = Answers.empty := by
  refine ⟨rfl, rfl, rfl, ?_⟩
  obtain ⟨unchanged, written⟩ :=
    input_all_or_nothing (.text "Ada") (Profile.applicant.element 0) Answers.empty
  obtain ⟨misplaced, refused⟩ := written (.text "Ada") rfl rfl rfl
  obtain ⟨f, new, h⟩ :=
    refused.2 ⟨[.key Profile.applicantKey], .index 0, [], .object [], rfl, rfl, rfl, rfl⟩
  exact ⟨f, new, h, misplaced f new h, unchanged f new h⟩

end Intake
