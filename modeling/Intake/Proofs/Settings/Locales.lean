import Intake.Proofs.Answers.Locales
import Intake.Proofs.Settings.Keeping
import Intake.Terminal

set_option autoImplicit false

/-!
# The locales that a program reports

Settings and answers change side by side, and a locale gets into them from outside in four ways
(`Desk.Event.Offers`). That every locale but the standard one was offered is an invariant: one lemma
for what settings do, one for what answers do, and an induction on the run. So a locale that is no
language tag has come in as it is, with the line feed that `Locale.isAccepted_iff` lets through.
-/

namespace Intake

/-- The settings and the answers that one program works on. -/
structure Desk where
  session : Session
  documents : List Answers

namespace Desk

def start : Desk := ⟨.start, []⟩

/-- What a program can do. Answers are told apart by their places. -/
inductive Event where
  | settings (e : Session.Event)
  | create (text locale : Option Text)
  | change (place : Nat) (c : Change)
  /-- Merges the answers at some places into new ones. -/
  | mergeVersions (places : List Nat)

section Runs

variable [FileSystem] [SettingsReader]

def after (e : Event) (w : Desk) : Desk :=
  match e with
  | .settings e => { w with session := w.session.after e }
  | .create text locale =>
    match Answers.create text locale with
    | .ok d => { w with documents := w.documents ++ [d] }
    | .error _ => w
  | .change place c => { w with documents := w.documents.modify place c.after }
  | .mergeVersions places =>
    match Answers.ofVersions (places.filterMap (w.documents[·]?)) with
    | .ok (merged, _) => { w with documents := w.documents ++ [merged] }
    | .error _ => w

def afterAll (run : List Event) (w : Desk) : Desk := run.foldl (fun w e => after e w) w

end Runs

/-- A text that an event gives for a locale. -/
inductive Event.Offers [SettingsReader] : Event → Text → Prop where
  | created {text : Option Text} {s : Text} : Offers (.create text (some s)) s
  | chosen {place : Nat} {s : Text} : Offers (.change place (.setLocale s)) s
  | field {fields : Members} {s : Text} :
      Members.get? Settings.localeKey fields = some (.text s) →
      Offers (.settings (.install fields)) s
  | file {name text s : Text} {called : Option Text} : Settings.Tells text (some s) called →
      Offers (.settings (.write name text)) s

end Desk

/-- A locale that is the standard one or was given. -/
def Locale.Known (given : Text → Prop) (l : Locale) : Prop :=
  l.tag = Settings.standard.defaultLocale.tag ∨ given l.tag

/-! ## Settings -/

namespace Session

variable {given : Text → Prop} {e : Event} {s : Session} {c : Settings}

theorem keeps_ofExcept {α : Type} (x : Except Crash α) : Keeps directory (ofExcept x) := by
  intro s
  cases x <;> rfl

theorem known_of_made {tag called : Option Text} (h : Settings.Made tag called c)
    (vouched : ∀ t, tag = some t → given t) : c.defaultLocale.Known given := by
  rw [Locale.Known, h.tag]
  cases tag with
  | none => exact .inl rfl
  | some t => exact .inr (vouched t rfl)

variable [SettingsReader]

theorem not_tells_nil {t : Text} {called : Option Text} : ¬ Settings.Tells [] (some t) called := by
  rintro ⟨d, read, ⟨_, none, _⟩ | ⟨pairs, mapping, _⟩⟩
  · cases none
  · rw [SettingsReader.root_of_read_nil read] at mapping
    cases mapping

/-- The locales that files and kept settings have are known. -/
structure Vouched (given : Text → Prop) (s : Session) : Prop where
  files : ∀ f ∈ s.directory.files, ∀ (t : Text) (called : Option Text),
    Settings.Tells f.2 (some t) called → given t
  cached : ∀ c, s.cached = some c → c.defaultLocale.Known given

variable [FileSystem]

theorem keeps_current (reload : Bool) : Keeps directory (current reload) := by
  intro s
  unfold current
  split
  · rfl
  · cases s.loadNamed <;> rfl

theorem keeps_applicantName (d : Answers) : Keeps directory (applicantName d) := by
  unfold applicantName
  split
  · exact .pure _
  · exact (keeps_current false).bind fun _ => .pure _

theorem keeps_preferredLocale (d : Answers) : Keeps directory (preferredLocale d) := by
  unfold preferredLocale
  split
  · exact .pure _
  · exact (keeps_current false).bind fun _ => .pure _

/-- What is in a file behind an event was there before it, or the event has written it. -/
theorem mem_files_after {f : Text × Text} (h : f ∈ (after e s).directory.files) :
    f ∈ s.directory.files ∨ e = .write f.1 f.2 := by
  have idle (keeps : Keeps directory (step e)) : f ∈ s.directory.files ∨ e = .write f.1 f.2 := by
    rw [Session.after, keeps s] at h
    exact .inl h
  cases e with
  | write file text =>
    rcases List.mem_cons.1 h with rfl | h
    · exact .inr rfl
    · exact .inl (List.mem_filter.1 h).1
  | remove file => exact .inl (List.mem_filter.1 h).1
  | load file => exact idle (Keeps.get.bind fun s => (keeps_ofExcept _).bind fun _ => .pure _)
  | loadNamed => exact idle (Keeps.get.bind fun s => (keeps_ofExcept _).bind fun _ => .pure _)
  | get reload => exact idle ((keeps_current reload).bind fun _ => .pure _)
  | install fields => exact idle ((keeps_ofExcept _).bind fun _ _ => rfl)
  | applicantName d => exact idle ((keeps_applicantName d).bind fun _ => .pure _)
  | preferredLocale d => exact idle ((keeps_preferredLocale d).bind fun _ => .pure _)
  | _ => exact idle fun _ => rfl

/-- What a file says is what its name leads to in the directory. -/
theorem Vouched.file (h : Vouched given s) {name id text t : Text} {called : Option Text}
    (found : s.entry name = .file id text)
    (tells : Settings.Tells text (some t) called) : given t := by
  have filled : text ≠ [] := by
    rintro rfl
    exact not_tells_nil tells
  have lookup := FileSystem.lookup_of_entry found filled
  obtain ⟨before, behind, files, _⟩ := List.lookup_eq_some_iff.1 lookup
  exact h.files (_, text) (files ▸ List.mem_append_right _ List.mem_cons_self) t called tells

theorem Vouched.loadNamed (h : Vouched given s) (loaded : s.loadNamed = .ok c) :
    c.defaultLocale.Known given := by
  rcases loadNamed_cases loaded with ⟨_, rfl⟩ | ⟨name, id, text, _, _, _, file, read⟩
  · exact .inl rfl
  · obtain ⟨tag, called, tells, made⟩ := Settings.ofText_eq_ok_iff.1 read
    refine known_of_made made ?_
    rintro t rfl
    exact h.file file tells

theorem Vouched.after (h : Vouched given s)
    (offers : ∀ t, Desk.Event.Offers (.settings e) t → given t) :
    Vouched given (Session.after e s) where
  files f mem t called tells := by
    rcases mem_files_after mem with mem | rfl
    · exact h.files f mem t called tells
    · exact offers t (.file tells)
  cached c cached := by
    rcases cached_after_iff.1 cached with installs | ⟨cached, _⟩
    · cases installs with
      | given made =>
        obtain ⟨tag, called, field, _, made⟩ := Settings.ofMembers_eq_ok_iff.1 made
        refine known_of_made made ?_
        rintro t rfl
        exact offers t (.field field)
      | loaded _ _ loaded => exact h.loadNamed loaded
    · exact h.cached c cached

/-- What comes of asking for the locale of some answers. It is not known only if settings are
needed and cannot be loaded. -/
theorem preferredLocale_cases (d : Answers) (s : Session) :
    (∃ l, d.locale = some l ∧ preferredLocale d s = .ok l s) ∨
      (∃ c new, (s.cached = some c ∨ s.loadNamed = .ok c) ∧
        preferredLocale d s = .ok c.defaultLocale new) ∨
      d.locale = none ∧ s.cached = none ∧
        ∃ x, s.loadNamed = .error x ∧ preferredLocale d s = .error x s := by
  unfold preferredLocale
  cases d.locale with
  | some l => exact .inl ⟨l, rfl, rfl⟩
  | none =>
    right
    cases cached : s.cached with
    | some c => exact .inl ⟨c, s, .inl rfl, bind_of_ok (current_of_cached cached) _⟩
    | none =>
      have run : current false s = _ := current_of_due (.inl cached)
      cases loaded : s.loadNamed with
      | ok c =>
        rw [loaded] at run
        exact .inl ⟨c, s.keep c, .inr rfl, bind_of_ok run _⟩
      | error x =>
        rw [loaded] at run
        exact .inr ⟨rfl, rfl, x, rfl, bind_of_error run _⟩

end Session

/-! ## Settings and answers -/

namespace Desk

variable {given : Text → Prop} {e : Event} {w : Desk}

theorem exists_of_mem_modify {d : Answers} {ds : List Answers} {place : Nat}
    {f : Answers → Answers} (h : d ∈ ds.modify place f) : ∃ old ∈ ds, d = old ∨ d = f old := by
  obtain ⟨i, found⟩ := List.mem_iff_getElem?.1 h
  rw [List.getElem?_modify] at found
  obtain ⟨old, here, changed⟩ := Option.map_eq_some_iff.1 found
  refine ⟨old, List.mem_of_getElem? here, ?_⟩
  split at changed
  · exact .inr changed.symm
  · exact .inl changed.symm

variable [SettingsReader]

/-- The locales of settings and of answers are known. -/
structure Vouched (given : Text → Prop) (w : Desk) : Prop where
  session : w.session.Vouched given
  documents : ∀ d ∈ w.documents, ∀ l, d.locale = some l → given l.tag

theorem vouched_start (given : Text → Prop) : start.Vouched given := by
  refine ⟨⟨?_, ?_⟩, ?_⟩ <;> exact nofun

/-- One more document leaves the others as they are. -/
theorem Vouched.add (h : Vouched given w) {d : Answers}
    (new : ∀ l, d.locale = some l → given l.tag) :
    Vouched given { w with documents := w.documents ++ [d] } where
  session := h.session
  documents := by
    simp only [List.forall_mem_append, List.forall_mem_singleton]
    exact ⟨h.documents, new⟩

variable [FileSystem]

theorem Vouched.after (h : Vouched given w) (offers : ∀ t, e.Offers t → given t) :
    Vouched given (Desk.after e w) := by
  cases e with
  | settings e => exact ⟨h.session.after offers, h.documents⟩
  | create text locale =>
    cases made : Answers.create text locale with
    | error f =>
      simp only [Desk.after, made]
      exact h
    | ok d =>
      simp only [Desk.after, made]
      refine h.add fun l chosen => ?_
      obtain rfl := Answers.locale_create made chosen
      exact offers l.tag .created
  | change place c =>
    refine ⟨h.session, fun d mem l chosen => ?_⟩
    obtain ⟨old, here, rfl | rfl⟩ := exists_of_mem_modify mem
    · exact h.documents _ here l chosen
    · rcases Change.locale_after chosen with before | rfl
      · exact h.documents old here l before
      · exact offers l.tag .chosen
  | mergeVersions places =>
    cases made : Answers.ofVersions (places.filterMap (w.documents[·]?)) with
    | error f =>
      simp only [Desk.after, made]
      exact h
    | ok r =>
    simp only [Desk.after, made]
    refine h.add fun l chosen => ?_
    obtain ⟨d, mem, chosen⟩ := Answers.locale_ofVersions made chosen
    obtain ⟨i, _, found⟩ := List.mem_filterMap.1 mem
    exact h.documents d (List.mem_of_getElem? found) l chosen

theorem Vouched.afterAll {run : List Event} (h : Vouched given w)
    (offers : ∀ e ∈ run, ∀ t, e.Offers t → given t) : Vouched given (Desk.afterAll run w) := by
  induction run generalizing w with
  | nil => exact h
  | cons e run ih =>
    obtain ⟨first, rest⟩ := List.forall_mem_cons.1 offers
    exact ih (h.after first) rest

/-- Answers report a locale that is known, or none because settings cannot be loaded. -/
theorem Vouched.preferredLocale (h : Vouched given w) {d : Answers} (mem : d ∈ w.documents) :
    (∃ l new, Session.preferredLocale d w.session = .ok l new ∧ l.Known given) ∨
    d.locale = none ∧ w.session.cached = none ∧
      ∃ x, w.session.loadNamed = .error x ∧
        Session.preferredLocale d w.session = .error x w.session := by
  rcases Session.preferredLocale_cases d w.session with
    ⟨l, chosen, run⟩ | ⟨c, new, cached | loaded, run⟩ | failed
  · exact .inl ⟨l, _, run, .inr (h.documents d mem l chosen)⟩
  · exact .inl ⟨_, new, run, h.session.cached c cached⟩
  · exact .inl ⟨_, new, run, h.session.loadNamed loaded⟩
  · exact .inr failed

end Desk

/-- What is accepted as a locale is a language tag, or a language tag with one line feed behind it,
and it is taken as it is. Whatever a program has done to its settings and its answers, all answers
then report a locale, unless they have none and the settings cannot be loaded, and it is a language
tag: it is something else only if a tag with a line feed behind it has been given before. -/
theorem locale_is_tag_up_to_line_feed [FileSystem] [SettingsReader] (s : Text)
    (run : List Desk.Event) :
    ((Locale.isAccepted s = true ↔
        Locale.IsLanguageTag s ∨ ∃ t, Locale.IsLanguageTag t ∧ s = t ++ "\n") ∧
      (Locale.isAccepted s = true → ∃ l, Locale.parse s = .ok l ∧ l.tag = s) ∧
      (Locale.isAccepted s = false → Locale.parse s = .error (.malformedLocale s))) ∧
    ∀ d ∈ (Desk.afterAll run .start).documents,
      let session := (Desk.afterAll run .start).session
      (∃ l new, Session.preferredLocale d session = .ok l new ∧
        (Locale.IsLanguageTag l.tag ∨
          (∃ e ∈ run, e.Offers l.tag) ∧ ∃ t, Locale.IsLanguageTag t ∧ l.tag = t ++ "\n")) ∨
      d.locale = none ∧ session.cached = none ∧
        ∃ x, session.loadNamed = .error x ∧
          Session.preferredLocale d session = .error x session := by
  constructor
  · refine ⟨Locale.isAccepted_iff, fun accepted => ?_, fun refused => ?_⟩
    · exact ⟨⟨s, accepted⟩, Locale.parse_eq_ok_iff.2 ⟨accepted, rfl⟩, rfl⟩
    · exact dif_neg (ne_true_of_eq_false refused)
  · intro d mem session
    have vouched : (Desk.afterAll run .start).Vouched fun t => ∃ e ∈ run, e.Offers t :=
      (Desk.vouched_start _).afterAll fun e mem t offers => ⟨e, mem, offers⟩
    refine (vouched.preferredLocale mem).imp_left ?_
    rintro ⟨l, new, reported, standard | offered⟩
    · have tag : Locale.IsLanguageTag l.tag := by
        rw [standard]
        exact Locale.isTag_iff.1 (by decide +kernel)
      exact ⟨l, new, reported, .inl tag⟩
    · have shape := Locale.isAccepted_iff.1 l.accepted
      exact ⟨l, new, reported, shape.imp_right fun ended => ⟨offered, ended⟩⟩

/-- Answers that are made with a line feed behind their locale report it with the line feed. -/
theorem line_feed_is_reported : ∃ d l,
    Answers.create none (some "en\n") = .ok d ∧
    Session.preferredLocale d .start = .ok l .start ∧
    l.tag = "en\n" ∧ ¬ Locale.IsLanguageTag l.tag := by
  have accepted : Locale.isAccepted "en\n" = true := by decide +kernel
  have refused : Locale.isTag "en\n" ≠ true := by decide +kernel
  let l : Locale := ⟨"en\n", accepted⟩
  refine ⟨{ Answers.empty with locale := some l }, l, ?_, rfl, rfl,
    fun tag => refused (Locale.isTag_iff.2 tag)⟩
  have parsed : Locale.parse "en\n" = .ok l := dif_pos accepted
  rw [Answers.create, Option.elim_none]
  dsimp only
  rw [parsed]
  rfl

end Intake
