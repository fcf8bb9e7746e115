import Intake.Proofs.Sequence
import Intake.Proofs.Settings.Fields
import Intake.Settings.Session
import Intake.Terminal

set_option autoImplicit false

/-!
# Settings that are kept

Every event that needs settings looks them up in one way (`Event.lookup?`): it takes those that are
kept, or else loads them and keeps them. `step_cases` says what one event does to what is kept, and
by induction what is kept after a run is what was installed last behind the last reset
(`cached_afterAll_iff`), so that files and the environment matter only when settings are loaded.
-/

namespace Intake.Session

variable [FileSystem] [SettingsReader]

/-- The state after an event, whether it succeeded or failed. -/
def after (e : Event) (s : Session) : Session := endState (step e s)

def afterAll (run : List Event) (s : Session) : Session := run.foldl (fun s e => after e s) s

theorem after_of_ok {e : Event} {s new : Session} {reply : Reply} (h : step e s = .ok reply new) :
    after e s = new := by
  simp only [after, h, endState]

theorem after_of_error {e : Event} {s new : Session} {x : Crash} (h : step e s = .error x new) :
    after e s = new := by
  simp only [after, h, endState]

/-- For an event that looks settings up: whether it demands that they are loaded again, and what it
replies once it has them. -/
def Event.lookup? : Event → Option (Bool × (Settings → Reply))
  | .get reload => some (reload, .settings)
  | .applicantName d =>
    if d.name? = none then some (false, fun c => .text c.anonymousName) else none
  | .preferredLocale d =>
    if d.locale = none then some (false, fun c => .text c.defaultLocale.tag) else none
  | _ => none

section Steps

variable {e : Event} {s new : Session} {reload : Bool} {reply : Settings → Reply} {c : Settings}
  {x : Crash}

/-- A look-up replies with the current settings. -/
theorem step_lookup (h : e.lookup? = some (reload, reply)) :
    step e = current reload >>= fun c => pure (reply c) := by
  cases e with
  | get again =>
    cases h
    rfl
  | applicantName d =>
    rw [Event.lookup?] at h
    split at h
    · next none =>
      cases h
      simp only [step, applicantName, none, bind_assoc, pure_bind]
    · cases h
  | preferredLocale d =>
    rw [Event.lookup?] at h
    split at h
    · next none =>
      cases h
      simp only [step, preferredLocale, none, bind_assoc, pure_bind]
    · cases h
  | _ => cases h

theorem current_of_cached (h : s.cached = some c) : current false s = .ok c s := by
  simp only [current, h]

/-- Settings are loaded if none are kept or if that is demanded. -/
theorem current_of_due (due : s.cached = none ∨ reload = true) : current reload s =
    match s.loadNamed with
    | .ok c => .ok c (s.keep c)
    | .error x => .error x s := by
  rcases due with none | rfl
  · cases loaded : s.loadNamed <;> simp only [current, none, loaded]
  · cases cached : s.cached <;> cases loaded : s.loadNamed <;> simp only [current, cached, loaded]

theorem step_load (name : Text) (s : Session) : step (.load name) s =
    match s.load name with
    | .ok c => .ok (.settings c) s
    | .error x => .error x s := by
  have run : step (.load name) s =
      (ofExcept (s.load name) >>= fun c => pure (.settings c) : EStateM Crash Session Reply) s :=
    rfl
  rw [run]
  cases s.load name <;> rfl

theorem step_loadNamed (s : Session) : step .loadNamed s =
    match s.loadNamed with
    | .ok c => .ok (.settings c) s
    | .error x => .error x s := by
  have run : step .loadNamed s =
      (ofExcept s.loadNamed >>= fun c => pure (.settings c) : EStateM Crash Session Reply) s := rfl
  rw [run]
  cases s.loadNamed <;> rfl

theorem step_install (fields : Members) (s : Session) : step (.install fields) s =
    match Settings.ofMembers fields with
    | .ok c => .ok .nothing (s.keep c)
    | .error e => .error (.fault e) s := by
  rw [step]
  cases Settings.ofMembers fields <;> rfl

/-- Answers that hold a name need no settings for it. -/
theorem step_applicantName {d : Answers} {n : Text} (h : d.name? = some n) (s : Session) :
    step (.applicantName d) s = .ok (.text n) s := by
  have run : applicantName d s = .ok n s := by
    rw [applicantName, h]
    rfl
  exact bind_of_ok run _

theorem step_preferredLocale {d : Answers} {l : Locale} (h : d.locale = some l) (s : Session) :
    step (.preferredLocale d) s = .ok (.text l.tag) s := by
  have run : preferredLocale d s = .ok l s := by
    rw [preferredLocale, h]
    rfl
  exact bind_of_ok run _

/-- What a look-up comes to. -/
theorem step_lookup_cases (h : e.lookup? = some (reload, reply)) (s : Session) :
    (∃ c, s.cached = some c ∧ reload = false ∧ step e s = .ok (reply c) s) ∨
      (s.cached = none ∨ reload = true) ∧
        ((∃ c, s.loadNamed = .ok c ∧ step e s = .ok (reply c) (s.keep c)) ∨
          ∃ x, s.loadNamed = .error x ∧ step e s = .error x s) := by
  have loads : s.cached = none ∨ reload = true →
      (∃ c, s.loadNamed = .ok c ∧ step e s = .ok (reply c) (s.keep c)) ∨
        ∃ x, s.loadNamed = .error x ∧ step e s = .error x s := by
    intro due
    have run := current_of_due due
    rw [step_lookup h]
    cases found : s.loadNamed with
    | ok c =>
      rw [found] at run
      exact .inl ⟨c, rfl, bind_of_ok run _⟩
    | error x =>
      rw [found] at run
      exact .inr ⟨x, rfl, bind_of_error run _⟩
  cases cached : s.cached with
  | none => exact .inr ⟨.inl rfl, loads (.inl cached)⟩
  | some c =>
    cases reload with
    | true => exact .inr ⟨.inr rfl, loads (.inr rfl)⟩
    | false =>
      rw [step_lookup h]
      exact .inl ⟨c, rfl, rfl, bind_of_ok (current_of_cached cached) _⟩

/-- The settings that an event puts in the place of those that are kept: given by their fields, or
loaded for a look-up. -/
inductive Installs (s : Session) : Event → Settings → Prop where
  | given {fields : Members} {c : Settings} : Settings.ofMembers fields = .ok c →
      Installs s (.install fields) c
  | loaded {e : Event} {reload : Bool} {reply : Settings → Reply} {c : Settings} :
      e.lookup? = some (reload, reply) → s.cached = none ∨ reload = true → s.loadNamed = .ok c →
      Installs s e c

theorem not_installs_of_idle (idle : e.lookup? = none) (other : ∀ fields, e ≠ .install fields) :
    ¬ Installs s e c := by
  intro h
  cases h with
  | given made => exact other _ rfl
  | loaded lookup _ _ =>
    rw [idle] at lookup
    cases lookup

/-- What is kept stays, and a failure changes nothing at all. -/
def Stays (s : Session) (e : Event) : Prop :=
  (∃ reply new, step e s = .ok reply new ∧ new.cached = s.cached) ∨ ∃ x, step e s = .error x s

theorem installs_or_stays_of_lookup (h : e.lookup? = some (reload, reply)) (s : Session) :
    (∃ c, Installs s e c ∧ step e s = .ok (reply c) (s.keep c)) ∨
      (∀ c, ¬ Installs s e c) ∧ Stays s e := by
  rcases step_lookup_cases h s with
    ⟨c, cached, rfl, run⟩ | ⟨due, ⟨c, found, run⟩ | ⟨x, failed, run⟩⟩
  · refine .inr ⟨fun d installs => ?_, .inl ⟨_, _, run, rfl⟩⟩
    cases installs with
    | given => cases h
    | loaded again due _ =>
      rw [h] at again
      cases again
      rw [cached] at due
      simp at due
  · exact .inl ⟨c, .loaded h due found, run⟩
  · refine .inr ⟨fun d installs => ?_, .inr ⟨x, run⟩⟩
    cases installs with
    | given => cases h
    | loaded _ _ found =>
      rw [failed] at found
      cases found

theorem installs_or_stays_of_fields (fields : Members) (s : Session) :
    (∃ c, Installs s (.install fields) c ∧ step (.install fields) s = .ok .nothing (s.keep c)) ∨
      (∀ c, ¬ Installs s (.install fields) c) ∧ Stays s (.install fields) := by
  have run := step_install fields s
  cases made : Settings.ofMembers fields with
  | ok c =>
    rw [made] at run
    exact .inl ⟨c, .given made, run⟩
  | error f =>
    rw [made] at run
    refine .inr ⟨fun c installs => ?_, .inr ⟨_, run⟩⟩
    cases installs with
    | given ok =>
      rw [made] at ok
      cases ok
    | loaded lookup => cases lookup

theorem stays_of_idle (idle : e.lookup? = none) (other : ∀ fields, e ≠ .install fields)
    (noReset : e ≠ .reset) (s : Session) : Stays s e := by
  cases e with
  | install fields => exact absurd rfl (other fields)
  | reset => exact absurd rfl noReset
  | load name =>
    rw [Stays, step_load]
    cases s.load name with
    | ok c => exact .inl ⟨_, _, rfl, rfl⟩
    | error x => exact .inr ⟨x, rfl⟩
  | loadNamed =>
    rw [Stays, step_loadNamed]
    cases s.loadNamed with
    | ok c => exact .inl ⟨_, _, rfl, rfl⟩
    | error x => exact .inr ⟨x, rfl⟩
  | get reload => cases idle
  | applicantName d =>
    cases name : d.name? with
    | none =>
      rw [Event.lookup?, if_pos name] at idle
      cases idle
    | some n => exact .inl ⟨_, _, step_applicantName name s, rfl⟩
  | preferredLocale d =>
    cases locale : d.locale with
    | none =>
      rw [Event.lookup?, if_pos locale] at idle
      cases idle
    | some l => exact .inl ⟨_, _, step_preferredLocale locale s, rfl⟩
  | _ => exact .inl ⟨_, _, rfl, rfl⟩

/-- What an event does to the settings that are kept: it puts others in their place, or it removes
them, or they stay. -/
theorem step_cases (e : Event) (s : Session) :
    (∃ c reply, Installs s e c ∧ step e s = .ok reply (s.keep c)) ∨
      (∀ c, ¬ Installs s e c) ∧
        (e = .reset ∧ step e s = .ok .nothing s.reset ∨ e ≠ .reset ∧ Stays s e) := by
  cases lookup : e.lookup? with
  | some found =>
    have noReset : e ≠ .reset := by
      rintro rfl
      cases lookup
    rcases installs_or_stays_of_lookup lookup s with ⟨c, installs⟩ | ⟨none, stays⟩
    · exact .inl ⟨c, _, installs⟩
    · exact .inr ⟨none, .inr ⟨noReset, stays⟩⟩
  | none =>
    by_cases given : ∃ fields, e = .install fields
    · obtain ⟨fields, rfl⟩ := given
      rcases installs_or_stays_of_fields fields s with ⟨c, installs⟩ | ⟨none, stays⟩
      · exact .inl ⟨c, _, installs⟩
      · exact .inr ⟨none, .inr ⟨nofun, stays⟩⟩
    · have other := not_exists.1 given
      refine .inr ⟨fun c => not_installs_of_idle lookup other, ?_⟩
      by_cases reset : e = .reset
      · subst reset
        exact .inl ⟨rfl, rfl⟩
      · exact .inr ⟨reset, stays_of_idle lookup other reset s⟩

end Steps

/-! ## Runs -/

theorem Installs.unique {s : Session} {e : Event} {c d : Settings} (h : Installs s e c)
    (h' : Installs s e d) : c = d := by
  cases h with
  | given made =>
    cases h' with
    | given made' => exact Except.ok.inj (made.symm.trans made')
    | loaded lookup _ _ => cases lookup
  | loaded lookup _ found =>
    cases h' with
    | given => cases lookup
    | loaded _ _ found' => exact Except.ok.inj (found.symm.trans found')

/-- No settings are installed in a run, and it has no reset. -/
def Undisturbed : Session → List Event → Prop
  | _, [] => True
  | s, e :: run => e ≠ .reset ∧ (∀ c, ¬ Installs s e c) ∧ Undisturbed (after e s) run

/-- The settings that a run installs last, with no reset behind that. -/
def LastInstalled (c : Settings) : Session → List Event → Prop
  | _, [] => False
  | s, e :: run => Installs s e c ∧ Undisturbed (after e s) run ∨ LastInstalled c (after e s) run

theorem cached_after_iff {e : Event} {s : Session} {c : Settings} :
    (after e s).cached = some c ↔
      Installs s e c ∨ s.cached = some c ∧ e ≠ .reset ∧ ∀ d, ¬ Installs s e d := by
  rcases step_cases e s with ⟨d, reply, installs, run⟩ | ⟨none, ⟨rfl, run⟩ | ⟨other, stays⟩⟩
  · rw [after_of_ok run]
    constructor
    · intro h
      cases h
      exact .inl installs
    · rintro (h | ⟨_, _, none⟩)
      · exact congrArg some (installs.unique h)
      · exact absurd installs (none d)
  · rw [after_of_ok run]
    refine iff_of_false nofun ?_
    rintro (h | ⟨_, other, _⟩)
    · exact none c h
    · exact other rfl
  · have kept : (after e s).cached = s.cached := by
      rcases stays with ⟨reply, new, run, kept⟩ | ⟨x, run⟩
      · rw [after_of_ok run, kept]
      · rw [after_of_error run]
    rw [kept]
    exact ⟨fun h => .inr ⟨h, other, none⟩, fun h => (h.resolve_left (none c)).1⟩

/-- What is kept behind a run was installed last in it, or was kept before it. -/
theorem cached_afterAll_iff {run : List Event} {s : Session} {c : Settings} :
    (afterAll run s).cached = some c ↔
      LastInstalled c s run ∨ s.cached = some c ∧ Undisturbed s run := by
  induction run generalizing s with
  | nil => simp [afterAll, LastInstalled, Undisturbed]
  | cons e run ih =>
    have tail : afterAll (e :: run) s = afterAll run (after e s) := rfl
    rw [tail, ih, cached_after_iff, LastInstalled, Undisturbed]
    simp only [or_and_right, and_assoc, or_assoc, or_left_comm]

theorem cached_eq_some_iff {run : List Event} {s : Session} {c : Settings} (h : s.cached = none) :
    (afterAll run s).cached = some c ↔ LastInstalled c s run := by
  simp [cached_afterAll_iff, h]

theorem afterAll_append (run later : List Event) (s : Session) :
    afterAll (run ++ later) s = afterAll later (afterAll run s) := by
  simp [afterAll]

/-- Once settings are kept, only a reset leaves none. -/
theorem exists_cached_afterAll {run : List Event} {s : Session} {c : Settings}
    (cached : s.cached = some c) (noReset : Event.reset ∉ run) :
    ∃ d, (afterAll run s).cached = some d := by
  induction run generalizing s c with
  | nil => exact ⟨c, cached⟩
  | cons e run ih =>
    rw [List.mem_cons, not_or] at noReset
    have stays : ∃ d, (after e s).cached = some d := by
      by_cases installs : ∃ d, Installs s e d
      · obtain ⟨d, installs⟩ := installs
        exact ⟨d, cached_after_iff.2 (.inl installs)⟩
      · exact ⟨c, cached_after_iff.2 (.inr ⟨cached, Ne.symm noReset.1, not_exists.1 installs⟩)⟩
    obtain ⟨d, cached⟩ := stays
    exact ih cached noReset.2

/-- A look-up or an installation that succeeds leaves settings that are kept. -/
theorem exists_cached_after {e : Event} {s new : Session} {reply : Reply}
    (uses : e.lookup? ≠ none ∨ ∃ fields, e = .install fields) (h : step e s = .ok reply new) :
    ∃ c, new.cached = some c := by
  rcases uses with lookup | ⟨fields, rfl⟩
  · obtain ⟨⟨reload, answer⟩, lookup⟩ := Option.ne_none_iff_exists'.1 lookup
    rcases step_lookup_cases lookup s with
      ⟨c, cached, _, run⟩ | ⟨_, ⟨c, _, run⟩ | ⟨x, _, run⟩⟩
    · cases run.symm.trans h
      exact ⟨c, cached⟩
    · cases run.symm.trans h
      exact ⟨c, rfl⟩
    · cases run.symm.trans h
  · rw [step_install] at h
    cases made : Settings.ofMembers fields with
    | ok c =>
      rw [made] at h
      cases h
      exact ⟨c, rfl⟩
    | error f =>
      rw [made] at h
      cases h

theorem eq_of_step_error {e : Event} {s new : Session} {x : Crash}
    (h : step e s = .error x new) : new = s := by
  rcases step_cases e s with ⟨_, _, _, run⟩ | ⟨_, ⟨_, run⟩ | ⟨_, ⟨_, _, run, _⟩ | ⟨_, run⟩⟩⟩
  all_goals cases run.symm.trans h
  rfl

theorem after_load (name : Text) (s : Session) : after (.load name) s = s := by
  rw [after, step_load]
  cases s.load name <;> rfl

theorem after_loadNamed (s : Session) : after .loadNamed s = s := by
  rw [after, step_loadNamed]
  cases s.loadNamed <;> rfl

/-! ## Where settings come from -/

/-- There is no settings file. -/
def Unconfigured (s : Session) : Prop :=
  s.named = none ∨ ∃ name, s.named = some name ∧
    (name = "" ∨ FileName.isName name = false ∨ s.entry name = .missing)

/-- What an event has for the locale and for the name: the fields it gives, or what the settings
file says. -/
inductive Says (s : Session) : Event → Option Text → Option Text → Prop where
  | fields {fields : Members} {given called : Option Text} :
      Members.get? Settings.localeKey fields = given.map .text →
      Members.get? Settings.nameKey fields = called.map .text →
      Says s (.install fields) given called
  | file {e : Event} {name id text : Text} {given called : Option Text} :
      e.lookup? ≠ none → s.named = some name → name ≠ "" → FileName.isName name = true →
      s.entry name = .file id text → Settings.Tells text given called →
      Says s e given called
  | nothing {e : Event} : e.lookup? ≠ none → Unconfigured s → Says s e none none

theorem load_cases {s : Session} {name : Text} {c : Settings} (h : s.load name = .ok c) :
    (FileName.isName name = false ∨ s.entry name = .missing) ∧ c = .standard ∨
      ∃ id text, FileName.isName name = true ∧ s.entry name = .file id text ∧
        Settings.ofText text = .ok c := by
  unfold load at h
  split at h
  · next isName =>
    split at h
    · next missing => exact .inl ⟨.inr missing, (Except.ok.inj h).symm⟩
    · cases h
    · cases h
    · cases h
    · next id text file => exact .inr ⟨id, text, isName, file, mapError_eq_ok_iff.1 h⟩
  · next other => exact .inl ⟨.inl (eq_false_of_ne_true other), (Except.ok.inj h).symm⟩

theorem loadNamed_cases {s : Session} {c : Settings} (h : s.loadNamed = .ok c) :
    Unconfigured s ∧ c = .standard ∨
      ∃ name id text, s.named = some name ∧ name ≠ "" ∧ FileName.isName name = true ∧
        s.entry name = .file id text ∧ Settings.ofText text = .ok c := by
  cases named : s.named with
  | none =>
    rw [loadNamed, named] at h
    exact .inl ⟨.inl named, (Except.ok.inj h).symm⟩
  | some name =>
    rw [loadNamed, named] at h
    dsimp only at h
    split at h
    · next empty => exact .inl ⟨.inr ⟨name, named, .inl empty⟩, (Except.ok.inj h).symm⟩
    · next nonempty =>
      rcases load_cases h with ⟨none, standard⟩ | ⟨id, text, isName, file, read⟩
      · exact .inl ⟨.inr ⟨name, named, .inr none⟩, standard⟩
      · exact .inr ⟨name, id, text, rfl, nonempty, isName, file, read⟩

theorem Installs.made {s : Session} {e : Event} {c : Settings} (h : Installs s e c) :
    ∃ given called, Says s e given called ∧ Settings.Made given called c := by
  cases h with
  | given made =>
    obtain ⟨given, called, locale, name, made⟩ := Settings.ofMembers_eq_ok_iff.1 made
    exact ⟨given, called, .fields locale name, made⟩
  | loaded lookup due found =>
    have looksUp : e.lookup? ≠ none := by
      rw [lookup]
      exact nofun
    rcases loadNamed_cases found with
      ⟨none, rfl⟩ | ⟨name, id, text, named, nonempty, isName, file, read⟩
    · exact ⟨_, _, .nothing looksUp none, Settings.made_standard⟩
    · obtain ⟨given, called, tells, made⟩ := Settings.ofText_eq_ok_iff.1 read
      exact ⟨given, called, .file looksUp named nonempty isName file tells, made⟩

theorem LastInstalled.exists_installs {run : List Event} {s : Session} {c : Settings}
    (h : LastInstalled c s run) :
    ∃ before e later, run = before ++ e :: later ∧ Installs (afterAll before s) e c := by
  induction run generalizing s with
  | nil => cases h
  | cons e run ih =>
    rcases h with ⟨installs, _⟩ | h
    · exact ⟨[], e, run, rfl, installs⟩
    · obtain ⟨before, e', later, rfl, installs⟩ := ih h
      exact ⟨e :: before, e', later, rfl, installs⟩

/-! ## The whole life of a program -/

theorem exists_lastInstalled {before later : List Event} {e : Event} {s new : Session}
    {reply : Reply} (empty : s.cached = none)
    (uses : e.lookup? ≠ none ∨ ∃ fields, e = .install fields)
    (h : step e (afterAll before s) = .ok reply new) (noReset : Event.reset ∉ later) :
    ∃ c, LastInstalled c s (before ++ e :: later) := by
  obtain ⟨c, cached⟩ := exists_cached_after uses h
  obtain ⟨d, cached⟩ := exists_cached_afterAll cached noReset
  refine ⟨d, (cached_eq_some_iff empty).1 ?_⟩
  rw [afterAll_append, ← cached, ← after_of_ok h]
  rfl

end Intake.Session

namespace Intake

open Session

/-- Settings over a program that starts with any files and any environment, whatever names lead to
and however files are read. Behind any run:

* Settings are kept exactly if some were installed and no reset came behind that, and then they are
  those that were installed last. Some are, once an installation or a look-up has succeeded and no
  reset has come behind that. Then every look-up that does not demand loading answers with them.
* A look-up with nothing kept, or one that demands loading, comes to what loading comes to, and what
  is loaded is kept.
* What fails changes nothing, and loading alone changes nothing.
* What is kept has a name and an accepted locale: those that its fields or its file had, and the
  standard ones for what they left out. -/
theorem settings_kept_over_runs [FileSystem] [SettingsReader] (directory : Directory)
    (named : Option Text) (run : List Event) :
    let initial : Session := ⟨directory, named, none⟩
    let s := afterAll run initial
    ((∀ c, s.cached = some c ↔ LastInstalled c initial run) ∧
      (∀ before e later reply new, run = before ++ e :: later →
        (e.lookup? ≠ none ∨ ∃ fields, e = .install fields) →
        step e (afterAll before initial) = .ok reply new → Event.reset ∉ later →
        ∃ c, LastInstalled c initial run) ∧
      ∀ c, LastInstalled c initial run → ∀ e reply, e.lookup? = some (false, reply) →
        step e s = .ok (reply c) s) ∧
    (∀ e reload reply, e.lookup? = some (reload, reply) → s.cached = none ∨ reload = true →
      (∃ c, step .loadNamed s = .ok (.settings c) s ∧ step e s = .ok (reply c) (s.keep c)) ∨
        ∃ x, step .loadNamed s = .error x s ∧ step e s = .error x s) ∧
    ((∀ e x new, step e s = .error x new → new = s) ∧
      (∀ name, after (.load name) s = s) ∧ after .loadNamed s = s) ∧
    ∀ c, s.cached = some c →
      (c.anonymousName ≠ "" ∧ Locale.isAccepted c.defaultLocale.tag = true) ∧
        ∃ before e later given called, run = before ++ e :: later ∧
          Says (afterAll before initial) e given called ∧ Settings.Made given called c := by
  intro initial s
  have kept (c : Settings) : s.cached = some c ↔ LastInstalled c initial run :=
    cached_eq_some_iff rfl
  refine ⟨⟨kept, ?_, ?_⟩, ?_,
    ⟨fun e x new => eq_of_step_error, fun name => after_load name s, after_loadNamed s⟩, ?_⟩
  · rintro before e later reply new rfl uses done noReset
    exact exists_lastInstalled rfl uses done noReset
  · intro c installed e reply lookup
    rw [step_lookup lookup]
    exact bind_of_ok (current_of_cached ((kept c).2 installed)) _
  · intro e reload reply lookup due
    have loads := step_loadNamed s
    rcases step_lookup_cases lookup s with
      ⟨c, cached, rfl, _⟩ | ⟨_, ⟨c, found, done⟩ | ⟨x, failed, done⟩⟩
    · rw [cached] at due
      simp at due
    · rw [found] at loads
      exact .inl ⟨c, loads, done⟩
    · rw [failed] at loads
      exact .inr ⟨x, loads, done⟩
  · intro c cached
    obtain ⟨before, e, later, eq, installs⟩ := ((kept c).1 cached).exists_installs
    obtain ⟨given, called, told, made⟩ := installs.made
    exact ⟨made.valid, before, e, later, given, called, eq, told, made⟩

-- Settings that are installed outlast a file that has others.
example : (afterAll [.install [(Settings.localeKey, .text "fr")], .name "store.yaml",
    .write "store.yaml" "default_locale: de", .get false] ⟨⟨[]⟩, none, none⟩).cached.map
      (·.defaultLocale.tag) = some "fr" := by
  decide +kernel

end Intake
