import Intake.Proofs.Answers.Versions
import Intake.Proofs.CommandLine.Showing
import Intake.Proofs.CommandLine.Storing
import Intake.Proofs.Sequence

set_option autoImplicit false

/-!
# What runs report

`Guards` says of a part of a run which faults it breaks off with at most. All parts of a run report
the faults of the store, or have none, except that `entities` asks for the names at a path without
a look at the faults of that. `Raises` lists the faults that the store has for a command, and a run
that comes to one of them ends with a report of it.
-/

namespace Intake

/-! ## Faults that break off a run -/

namespace Run

variable {α β : Type} {ok : Fault → Prop}

/-- The part breaks off with no faults but these. -/
def Guards (ok : Fault → Prop) (x : Run α) : Prop :=
  ∀ s e after, x s = .error (.crashed (.fault e)) after → ok e

theorem Guards.bind_of_run {x : Run α} {f : α → Run β} (first : Guards ok x)
    (second : ∀ s a after, x s = .ok a after → Guards ok (f a)) : Guards ok (x >>= f) := by
  intro s e after h
  cases run : x s with
  | ok a mid =>
    rw [bind_of_ok run] at h
    exact second s a mid run mid e after h
  | error ending mid =>
    rw [bind_of_error run] at h
    cases h
    exact first s e after run

theorem Guards.bind {x : Run α} {f : α → Run β} (first : Guards ok x)
    (second : ∀ a, Guards ok (f a)) : Guards ok (x >>= f) :=
  first.bind_of_run fun _ a _ _ => second a

theorem guards_pure (a : α) : Guards ok (pure a) := by
  intro s e after h
  cases h

theorem guards_get : Guards ok get := by
  intro s e after h
  cases h

theorem guards_modify (f : Shell → Shell) : Guards ok (modify f) := by
  intro s e after h
  cases h

theorem guards_throw {ending : Ending} (h : ∀ e, ending = .crashed (.fault e) → ok e) :
    Guards ok (throw ending : Run α) := by
  intro s e after thrown
  cases thrown
  exact h e rfl

theorem guards_orCrash {y : Except Fault α} (h : ∀ e, y = .error e → ok e) :
    Guards ok (orCrash y) := by
  cases y with
  | ok a => exact guards_pure a
  | error e =>
    refine guards_throw fun f same => ?_
    cases same
    exact h e rfl

section Foreign

variable (foreign : ∀ e : Fault, e.isReported = false → ok e)

include foreign

theorem guards_crash {e : Fault} (h : e.isReported = false) : Guards ok (crash e : Run α) :=
  guards_throw fun f same => by
    cases same
    exact foreign e h

theorem guards_foreign {y : Except Fault α} (h : Foreign y) : Guards ok (orCrash y) :=
  guards_orCrash fun e failed => foreign e (h e failed)

variable [Host]

theorem guards_say (message : Text) : Guards ok (say message) :=
  (guards_foreign foreign (Display.foreign_message message)).bind fun _ => guards_modify _

theorem guards_refuse (message : Text) : Guards ok (refuse message : Run α) :=
  (guards_say foreign message).bind fun _ => guards_throw nofun

/-- Faults of the store are reported, so that they do not break off the run. -/
theorem guards_report (aim : Text) (y : Except Fault α) : Guards ok (report aim y) := by
  cases y with
  | ok a => exact guards_pure a
  | error e =>
    unfold report
    dsimp only
    split
    · exact guards_refuse foreign _
    · next other => exact guards_crash foreign (by simpa using other)

theorem guards_edit (aim : Text) (y : Edit α) (d : Answers) : Guards ok (edit aim y d) := by
  unfold edit
  split
  · exact guards_pure _
  · exact guards_report foreign aim _

theorem guards_file (missing : Text) {undecoded : Text → Run (Text × Text)} (f : FileName)
    (failed : ∀ detail, Guards ok (undecoded detail)) : Guards ok (file missing undecoded f) := by
  refine guards_get.bind fun s => ?_
  split
  · exact guards_refuse foreign _
  · exact guards_throw nofun
  · exact guards_throw nofun
  · exact failed _
  · exact guards_pure _

theorem guards_load (f : FileName) : Guards ok (load f) := by
  refine (guards_file foreign _ f ?_).bind fun _ => ?_
  · exact fun _ => guards_throw nofun
  · exact (guards_report foreign _ _).bind fun _ => guards_pure _

theorem guards_print (o : Output) : Guards ok (print o) := by
  refine guards_get.bind fun s => ?_
  extract_lets goOn
  have shown : ∀ u, Guards ok (goOn u) := by
    intro u
    refine (guards_foreign foreign o.foreign_check).bind fun _ => ?_
    split
    · exact guards_modify _
    · exact (guards_modify _).bind fun _ => guards_crash foreign rfl
  split
  · exact (guards_crash foreign rfl).bind shown
  · exact shown ()

end Foreign

end Run

namespace Manner

open Run

variable [Host] {ok : Fault → Prop} (foreign : ∀ e : Fault, e.isReported = false → ok e)
  (m : Manner)

include foreign

theorem guards_confirm (message : Text) : Guards ok (m.confirm message) := by
  unfold confirm
  split
  · exact guards_pure ()
  · exact guards_say foreign message

theorem guards_note (message : Text) : Guards ok (m.note message) := by
  unfold note
  split
  · exact (guards_foreign foreign (Display.foreign_note message)).bind fun _ => guards_modify _
  · exact guards_pure ()

theorem guards_notes (messages : List Text) :
    Guards ok (forIn messages PUnit.unit fun t _ => do
      m.note t
      return .yield PUnit.unit) := by
  induction messages with
  | nil => exact guards_pure _
  | cons t rest ih =>
    simp only [List.forIn_cons, bind_assoc, pure_bind] at ih ⊢
    exact (m.guards_note foreign t).bind fun _ => ih

theorem guards_save (f : FileName) (name : Text) (d : Answers) : Guards ok (m.save f name d) := by
  have persisted : Foreign d.persisted := by
    unfold Answers.persisted
    split
    · exact .ok _
    · exact .error rfl
  refine (guards_foreign foreign persisted).bind fun text => ?_
  split
  · exact (guards_modify _).bind fun _ => m.guards_note foreign _
  · exact (guards_modify _).bind fun _ => guards_crash foreign rfl

theorem guards_give (v : Json) (otherwise : Output) : Guards ok (m.give v otherwise) :=
  guards_print foreign _

end Manner

namespace Command

open Run

variable [Host]

theorem parse_of_parsePath {path : Text} {s after : Shell} {p : Path}
    (h : parsePath path s = .ok p after) : Path.parse path = .ok p := by
  have read := reads_parsePath path s rfl
  rw [h] at read
  exact read.2

section Guards

variable {ok : Fault → Prop} (foreign : ∀ e : Fault, e.isReported = false → ok e) (m : Manner)

include foreign

theorem guards_parsePath (path : Text) : Guards ok (parsePath path) := guards_report foreign _ _

theorem guards_closing (report : ConflictReport) (f : FileName) : Guards ok (do
    if report.hasConflicts then
      m.confirm (Numeral.ofInt report.total ++ " conflicting path(s) kept from " ++ f.text)
    m.give report.toJson (.panel "Merge report" report.toJson)) := by
  extract_lets goOn
  have given : ∀ u, Guards ok (goOn u) := fun _ => m.guards_give foreign _ _
  split
  · exact (m.guards_confirm foreign _).bind given
  · exact given ()

theorem guards_execute (c : Command)
    (root : ∀ file path p, c = .entities file path → Path.parse path = .ok p → p.isRoot = true →
      ok .rootIndexed) : Guards ok (c.execute m) := by
  cases c with
  | print file => exact (guards_load foreign file).bind fun r => m.guards_give foreign _ _
  | read file path type =>
    refine (guards_load foreign file).bind fun r =>
      (guards_parsePath foreign path).bind fun p =>
        (guards_foreign foreign (r.2.foreign_readScalar p type)).bind fun found => ?_
    split
    · exact guards_refuse foreign _
    · next v =>
      exact (guards_foreign foreign v.foreign_toJson).bind fun _ => m.guards_give foreign _ _
  | put file path _ _ | delete file path | setEntities file path _ =>
    refine (guards_load foreign file).bind fun r =>
      (guards_parsePath foreign path).bind fun p => (guards_edit foreign _ _ _).bind fun new => ?_
    exact (m.guards_save foreign _ _ _).bind fun _ => m.guards_confirm foreign _
  | deleteEntities file path indices =>
    refine (guards_load foreign file).bind fun r =>
      (guards_parsePath foreign path).bind fun p => (guards_edit foreign _ _ _).bind ?_
    rintro ⟨deleted, new⟩
    cases deleted with
    | false => exact guards_refuse foreign _
    | true => exact (m.guards_save foreign _ _ _).bind fun _ => m.guards_confirm foreign _
  | entities file path =>
    refine (guards_load foreign file).bind fun r =>
      (guards_parsePath foreign path).bind_of_run fun s p after run => ?_
    have named : ∀ e, r.2.entityNames p = .error e → ok e := by
      intro e failed
      unfold Answers.entityNames at failed
      split at failed
      · next atRoot =>
        cases failed
        exact root file path p rfl (parse_of_parsePath run) atRoot
      · split at failed <;> cases failed
    refine (guards_orCrash named).bind fun names => ?_
    split
    · exact guards_say foreign _
    · exact m.guards_give foreign _ _
  | evaluate file query =>
    refine (guards_load foreign file).bind fun r => (guards_report foreign _ _).bind fun q =>
      (guards_report foreign _ _).bind fun found => (m.guards_give foreign _ _).bind fun _ => ?_
    split
    · exact guards_throw nofun
    · exact guards_pure ()
  | merge target source write =>
    refine (guards_load foreign target).bind fun r => (guards_load foreign source).bind fun t =>
      (m.guards_notes foreign _).bind fun _ => ?_
    have unshown : ∀ e, Answers.ofVersions [r.2, t.2] = .error e → ok e := by
      intro e failed
      obtain ⟨_, rfl⟩ := Answers.ofVersions_eq_error_iff.1 failed
      exact foreign _ rfl
    refine (guards_orCrash unshown).bind fun result => ?_
    obtain ⟨merged, report⟩ := result
    cases write with
    | false => exact guards_closing foreign m report target
    | true =>
      exact (m.guards_save foreign _ _ _).bind fun _ => (m.guards_confirm foreign _).bind fun _ =>
        guards_closing foreign m report target

end Guards

/-! ## Faults of the store -/

/-- The file that a command looks at first. -/
def mainFile : Command → FileName
  | print file | read file _ _ | put file _ _ _ | delete file _ | entities file _
  | setEntities file _ _ | deleteEntities file _ _ | evaluate file _ | merge file _ _ => file

/-- The address that a command is given. -/
def path? : Command → Option Text
  | read _ path _ | put _ path _ _ | delete _ path | entities _ path | setEntities _ path _
  | deleteEntities _ path _ => some path
  | _ => none

end Command

/-- What is found in the file of a name, as far as it is there. -/
def Directory.Opens [FileSystem] (dir : Directory) (f : FileName) (x : Except Fault Answers) :
    Prop :=
  ∃ name text, FileSystem.entry dir f = .file name text ∧ Answers.ofText text = x

namespace Command

open Run

/-- The faults that the store has for a command, with what the report says before them. -/
inductive Raises [FileSystem] (dir : Directory) : Command → Text → Fault → Prop
  | document {c : Command} {e : Fault} (bad : dir.Opens c.mainFile (.error e)) : Raises dir c [] e
  | source {target source : FileName} {write : Bool} {d : Answers} {e : Fault}
      (old : dir.Opens target (.ok d)) (bad : dir.Opens source (.error e)) :
      Raises dir (.merge target source write) [] e
  | path {c : Command} {path : Text} {d : Answers} {e : Fault} (old : dir.Opens c.mainFile (.ok d))
      (given : c.path? = some path) (bad : Path.parse path = .error e) : Raises dir c [] e
  | put {file : FileName} {path value : Text} {type : Storage} {p : Path} {d new : Answers}
      {e : Fault} (old : dir.Opens file (.ok d)) (parsed : Path.parse path = .ok p)
      (bad : (Edit.putScalar p type value).run d = .error e new) :
      Raises dir (.put file path value type) ("Cannot write " ++ p.text ++ ": ") e
  | delete {file : FileName} {path : Text} {p : Path} {d new : Answers} {e : Fault}
      (old : dir.Opens file (.ok d)) (parsed : Path.parse path = .ok p)
      (bad : (Edit.delete p).run d = .error e new) :
      Raises dir (.delete file path) ("Cannot delete " ++ p.text ++ ": ") e
  | setEntities {file : FileName} {path : Text} {names : List Text} {p : Path} {d new : Answers}
      {e : Fault} (old : dir.Opens file (.ok d)) (parsed : Path.parse path = .ok p)
      (bad : (Edit.putEntities p names).run d = .error e new) :
      Raises dir (.setEntities file path names) ("Cannot write entities at " ++ p.text ++ ": ") e
  | deleteEntities {file : FileName} {path : Text} {indices : List Int} {p : Path}
      {d new : Answers} {e : Fault} (old : dir.Opens file (.ok d))
      (parsed : Path.parse path = .ok p)
      (bad : (Edit.deleteEntities p indices).run d = .error e new) :
      Raises dir (.deleteEntities file path indices)
        ("Cannot delete entities at " ++ p.text ++ ": ") e
  | unrooted {file : FileName} {query : Text} {d : Answers} {e : Fault}
      (old : dir.Opens file (.ok d)) (bad : RootedQuery.parse query = .error e) :
      Raises dir (.evaluate file query) [] e
  | query {file : FileName} {query : Text} {q : RootedQuery} {d : Answers} {e : Fault}
      (old : dir.Opens file (.ok d)) (rooted : RootedQuery.parse query = .ok q)
      (bad : Query.parse q.text = .error e) : Raises dir (.evaluate file query) [] e

section Steps

variable [Host] {α β : Type} {s : Shell} {x : Run α}

theorem bind_of_refuse {message : Text} (h : x s = (refuse message : Run α) s) (f : α → Run β) :
    (x >>= f) s = (refuse message : Run β) s := by
  simp only [bind, EStateM.bind, h, refuse, say, orCrash]
  cases Display.message message <;> rfl

theorem file_of_entry {f : FileName} {name text : Text} (missing : Text)
    (undecoded : Text → Run (Text × Text))
    (h : FileSystem.entry s.directory f = .file name text) :
    file missing undecoded f s = .ok (name, text) s := by
  have here : (get : Run Shell) s = .ok s s := rfl
  rw [Run.file, bind_of_ok here]
  simp only [h]
  rfl

theorem load_of_opens {f : FileName} {d : Answers} (h : s.directory.Opens f (.ok d)) :
    ∃ name, load f s = .ok (name, d) s := by
  obtain ⟨name, text, entry, read⟩ := h
  refine ⟨name, ?_⟩
  rw [load, bind_of_ok (file_of_entry _ _ entry)]
  simp only [read]
  rfl

theorem report_of_error {aim : Text} {e : Fault} (h : e.isReported = true) :
    (report aim (.error e) : Run α) = refuse (aim ++ e.report) := if_pos h

theorem load_of_bad {f : FileName} {e : Fault} (h : s.directory.Opens f (.error e))
    (reported : e.isReported = true) : load f s = (refuse ([] ++ e.report) : Run _) s := by
  obtain ⟨name, text, entry, read⟩ := h
  rw [load, bind_of_ok (file_of_entry _ _ entry)]
  simp only [read, report_of_error reported]
  exact bind_of_refuse rfl _

theorem edit_of_error {aim : Text} {y : Edit α} {d new : Answers} {e : Fault}
    (h : y.run d = .error e new) (reported : e.isReported = true) :
    (edit aim y d : Run (α × Answers)) = refuse (aim ++ e.report) := by
  simp only [edit, h, report_of_error reported]

theorem parsePath_of_ok {path : Text} {p : Path} (h : Path.parse path = .ok p) :
    parsePath path s = .ok p s := by
  rw [parsePath, h]
  rfl

end Steps

variable [Host]

/-- A command that comes to a fault of the store reports it and does nothing else. -/
theorem execute_of_raises {s : Shell} {m : Manner} {c : Command} {aim : Text} {e : Fault}
    (h : c.Raises s.directory aim e) (reported : e.isReported = true) :
    c.execute m s = (refuse (aim ++ e.report) : Run Unit) s := by
  cases h with
  | document bad =>
    have stopped := load_of_bad bad reported
    cases c <;> exact bind_of_refuse stopped _
  | source old bad =>
    obtain ⟨name, loaded⟩ := load_of_opens old
    rw [execute, bind_of_ok loaded]
    exact bind_of_refuse (load_of_bad bad reported) _
  | path old given bad =>
    obtain ⟨name, loaded⟩ := load_of_opens old
    have stopped (path : Text) (bad : Path.parse path = .error e) :
        parsePath path s = (refuse ([] ++ e.report) : Run Path) s := by
      rw [parsePath, bad, report_of_error reported]
    cases c <;> cases given
    all_goals exact (bind_of_ok loaded _).trans (bind_of_refuse (stopped _ bad) _)
  | put old parsed bad | delete old parsed bad | setEntities old parsed bad
  | deleteEntities old parsed bad =>
    obtain ⟨name, loaded⟩ := load_of_opens old
    rw [execute, bind_of_ok loaded]
    dsimp only
    rw [bind_of_ok (parsePath_of_ok parsed), edit_of_error bad reported]
    exact bind_of_refuse rfl _
  | unrooted old bad =>
    obtain ⟨name, loaded⟩ := load_of_opens old
    rw [execute, bind_of_ok loaded, bad, report_of_error reported]
    exact bind_of_refuse rfl _
  | @query file query q d e old rooted bad =>
    obtain ⟨name, loaded⟩ := load_of_opens old
    have found : Query.findWith m.skipping q.text d.tree = .error e := by
      rw [Query.findWith, bad]
      rfl
    have asked : report [] (RootedQuery.parse query) s = .ok q s := by
      rw [rooted]
      rfl
    rw [execute, bind_of_ok loaded]
    dsimp only
    rw [bind_of_ok asked, found, report_of_error reported]
    exact bind_of_refuse rfl _

/-- The names at the root are asked for, and the fault of that is not looked at. -/
theorem execute_entities_of_root {s : Shell} {m : Manner} {file : FileName} {path : Text} {p : Path}
    {d : Answers} (old : s.directory.Opens file (.ok d)) (parsed : Path.parse path = .ok p)
    (atRoot : p.isRoot = true) :
    (entities file path).execute m s = .error (.crashed (.fault .rootIndexed)) s := by
  obtain ⟨name, loaded⟩ := load_of_opens old
  have unnamed : d.entityNames p = .error .rootIndexed := if_pos atRoot
  rw [execute, bind_of_ok loaded]
  dsimp only
  rw [bind_of_ok (parsePath_of_ok parsed), unnamed]
  rfl

end Command

/-! ## Command lines -/

namespace CommandLine

open Run Command

section Hosted

variable [Host]

/-- How a run ends that reports a fault: so, or at a report that cannot be shown. -/
inductive Reported (aim : Text) (e : Fault) : Ending × Shell → Prop
  | said {s : Shell} (last : s.messages.getLast? = some (aim ++ e.report)) :
      Reported aim e (.refused, s)
  | garbled {s : Shell} {g : Fault} (unshown : Display.message (aim ++ e.report) = .error g) :
      Reported aim e (.crashed (.fault g), s)

theorem Reported.exitCode {aim : Text} {e : Fault} {r : Ending × Shell} (h : Reported aim e r) :
    r.1.exitCode = 1 := by
  cases h <;> rfl

/-- The settings that a command line names, if it names any, can be read. -/
def SettingsRead (s : Shell) (args : List Text) : Prop :=
  ∀ w name, OptionReader.words? globalSpecs false args = some w →
    w.valueOf? configSpec = some name → FileName.isName name = true ∧ ∃ plain text note,
      FileSystem.entry s.directory (.parse name) = .file plain text ∧
        readSettings s.notes (.parse name) text = .ok note

theorem checkSettings_of_read {s : Shell} {f : FileName} {name text : Text} {note : Option Text}
    (entry : FileSystem.entry s.directory f = .file name text)
    (read : readSettings s.notes f text = .ok note) :
    ∃ after, checkSettings f s = .ok () after ∧ after.directory = s.directory := by
  have here : (get : Run Shell) s = .ok s s := rfl
  rw [checkSettings, bind_of_ok (file_of_entry _ _ entry)]
  dsimp only
  rw [bind_of_ok here]
  simp only [read]
  cases note with
  | none => exact ⟨s, rfl, rfl⟩
  | some t => exact ⟨{ s with messages := s.messages ++ [t] }, rfl, rfl⟩

theorem runVerb_eq {v : Verb} {w : Words} {args : List Text} {c : Command}
    (request : Command.request v args = .command c) : runVerb v w args = (do
      match (w.valueOf? configSpec).bind fileOf? with
      | some f => checkSettings f
      | none => pure ()
      modify fun s => { s with notes := (mannerOf w).notes }
      c.execute (mannerOf w)) := by
  unfold runVerb
  generalize Command.request v args = asked at request ⊢
  subst request
  rfl

theorem runVerb_of_command {s : Shell} {v : Verb} {w : Words} {args : List Text} {c : Command}
    (request : Command.request v args = .command c)
    (settings : ∀ name, w.valueOf? configSpec = some name → FileName.isName name = true ∧
      ∃ plain text note, FileSystem.entry s.directory (.parse name) = .file plain text ∧
        readSettings s.notes (.parse name) text = .ok note) :
    ∃ before, before.directory = s.directory ∧
      runVerb v w args s = c.execute (mannerOf w) before := by
  rw [runVerb_eq request]
  cases given : w.valueOf? configSpec with
  | none => exact ⟨{ s with notes := (mannerOf w).notes }, rfl, rfl⟩
  | some name =>
    obtain ⟨named, plain, text, note, entry, read⟩ := settings name given
    obtain ⟨mid, checked, same⟩ := checkSettings_of_read entry read
    have found : (some name).bind fileOf? = some (.parse name) := if_pos named
    refine ⟨{ mid with notes := (mannerOf w).notes }, same, ?_⟩
    rw [found]
    exact bind_of_ok checked _

/-- A command line whose settings can be read comes to its command. -/
theorem runArguments_of_command {s : Shell} {args : List Text} {m : Manner} {c : Command}
    (asked : command? args = some (m, c)) (settings : SettingsRead s args) :
    ∃ before, before.directory = s.directory ∧ runArguments args s = c.execute m before := by
  obtain ⟨_, nothing | ⟨w, name, words, given, bad⟩⟩ | ⟨_, nothing⟩ |
    ⟨w, v, rest, words, run, taken⟩ := runArguments_cases args
  · cases nothing.symm.trans asked
  · cases bad.symm.trans (settings w name words given).1
  · cases nothing.symm.trans asked
  · obtain ⟨rfl, request⟩ := (taken m c).1 asked
    rw [run]
    exact runVerb_of_command request fun name given => settings w name words given

section Guards

variable {ok : Fault → Prop} (foreign : ∀ e : Fault, e.isReported = false → ok e)

include foreign

theorem guards_checkSettings (f : FileName) : Guards ok (checkSettings f) := by
  refine (guards_file foreign _ f (guards_refuse foreign)).bind fun r => ?_
  refine guards_get.bind fun s => ?_
  split
  · next note _ =>
    cases note with
    | none => exact guards_pure ()
    | some t => exact guards_modify _
  · next e failed =>
    split
    · exact guards_refuse foreign _
    · exact guards_crash foreign (foreign_readSettings _ _ _ e failed)

theorem guards_runVerb {v : Verb} {w : Words} {args : List Text}
    (executed : ∀ c, Command.request v args = .command c → Guards ok (c.execute (mannerOf w))) :
    Guards ok (runVerb v w args) := by
  unfold runVerb
  extract_lets manner goOn
  have next : ∀ u, Guards ok (goOn u) := by
    intro u
    simp only [goOn]
    split
    · exact guards_throw nofun
    · exact guards_pure ()
    · next c request => exact (guards_modify _).bind fun _ => executed c request
  split
  · exact (guards_checkSettings foreign _).bind next
  · exact next ()

theorem guards_runArguments {args : List Text}
    (executed : ∀ m c, command? args = some (m, c) → Guards ok (c.execute m)) :
    Guards ok (runArguments args) := by
  obtain ⟨run, _⟩ | ⟨run, _⟩ | ⟨w, v, rest, _, run, asked⟩ := runArguments_cases args
  all_goals rw [run]
  · exact guards_throw nofun
  · exact guards_pure ()
  · exact guards_runVerb foreign fun c request => executed _ c ((asked _ c).2 ⟨rfl, request⟩)

end Guards

theorem run_of_error {s after : Shell} {args : List Text} {e : Ending}
    (h : runArguments args { s with messages := [], outputs := [] } = .error e after) :
    run s args = (e, after) := by
  unfold run EStateM.run
  rw [h]

theorem exists_of_run_crashed {s : Shell} {args : List Text} {c : Crash}
    (h : (run s args).1 = .crashed c) : ∃ after,
      runArguments args { s with messages := [], outputs := [] } = .error (.crashed c) after := by
  unfold run EStateM.run at h
  generalize runArguments args _ = r at h
  cases r with
  | ok u after => cases h
  | error e after =>
    cases h
    exact ⟨after, rfl⟩

theorem reported_of_refuse {s before : Shell} {args : List Text} {aim : Text} {e : Fault}
    (h : runArguments args { s with messages := [], outputs := [] } =
      (refuse (aim ++ e.report) : Run Unit) before) : Reported aim e (run s args) := by
  cases shown : Display.message (aim ++ e.report) with
  | ok u =>
    have said : (refuse (aim ++ e.report) : Run Unit) before =
        .error .refused { before with messages := before.messages ++ [aim ++ e.report] } := by
      simp only [refuse, say, shown]
      rfl
    rw [run_of_error (h.trans said)]
    exact .said (by simp)
  | error g =>
    have garbled : (refuse (aim ++ e.report) : Run Unit) before =
        .error (.crashed (.fault g)) before := by
      simp only [refuse, say, shown]
      rfl
    rw [run_of_error (h.trans garbled)]
    exact .garbled shown

/-- No run breaks off at a fault of the store, except that `entities` does at the root. A run that
comes to a fault of the store ends with a report of it, behind what was aimed at, if that can be
shown. -/
theorem store_faults_reported (s : Shell) (args : List Text) :
    (∀ e, (run s args).1 = .crashed (.fault e) → e.isReported = true →
      e = .rootIndexed ∧ ∃ m file path p, command? args = some (m, .entities file path) ∧
        Path.parse path = .ok p ∧ p.isRoot = true) ∧
    (∀ m c, command? args = some (m, c) → SettingsRead s args →
      (∀ aim e, c.Raises s.directory aim e → e.isReported = true →
        (run s args).1.exitCode = 1 ∧ Reported aim e (run s args)) ∧
      (∀ file path p d, c = .entities file path → s.directory.Opens file (.ok d) →
        Path.parse path = .ok p → p.isRoot = true →
          (run s args).1 = .crashed (.fault .rootIndexed))) := by
  constructor
  · intro e crashed reported
    obtain ⟨after, broke⟩ := exists_of_run_crashed crashed
    have guarded : Guards (fun e => e.isReported = false ∨ e = .rootIndexed ∧
        ∃ m file path p, command? args = some (m, .entities file path) ∧
          Path.parse path = .ok p ∧ p.isRoot = true) (runArguments args) := by
      refine guards_runArguments (fun _ => .inl) fun m c asked =>
        guards_execute (fun _ => .inl) m c ?_
      rintro file path p rfl parsed isRoot
      exact .inr ⟨rfl, m, file, path, p, asked, parsed, isRoot⟩
    refine (guarded _ e after broke).resolve_left ?_
    rw [reported]
    exact Bool.noConfusion
  · intro m c asked settings
    have readable : SettingsRead { s with messages := [], outputs := [] } args := settings
    obtain ⟨before, same, executed⟩ := runArguments_of_command asked readable
    have same : before.directory = s.directory := same
    constructor
    · intro aim e raises reported
      rw [← same] at raises
      have ended := reported_of_refuse (executed.trans (execute_of_raises raises reported))
      exact ⟨ended.exitCode, ended⟩
    · rintro file path p d rfl old parsed isRoot
      rw [← same] at old
      rw [run_of_error (executed.trans (execute_entities_of_root old parsed isRoot))]

end Hosted

/-- The report of the address `[/b]` closes a tag that is not open. -/
example : Display.message (Fault.malformedSegment "[/b]").report = .error .garbledMarkup := by
  decide +kernel

/-- An address with a bracket that is not closed is reported. -/
theorem open_bracket_reported :
    Reported [] (.malformedSegment "a[")
      (run (.start [("f.json", "\x7b\x7d")]) ["delete", "f.json", "a["]) := by
  have unset : SettingsRead (.start [("f.json", "\x7b\x7d")]) ["delete", "f.json", "a["] := by
    intro w name words given
    cases words
    cases given
  refine (((store_faults_reported _ _).2 ⟨false, false, false⟩ _ rfl unset).1 _ _ ?_ rfl).2
  exact .path ⟨"f.json", "\x7b\x7d", rfl, rfl⟩ rfl rfl

/-- The entities at the root are asked for, which is a fault of the store without a report. -/
theorem entities_of_root_break_off :
    let ended := run (.start [("f.json", "\x7b\x7d")]) ["entities", "f.json", "$"]
    ended.1 = .crashed (.fault .rootIndexed) ∧ Fault.rootIndexed.isReported = true := by
  decide +kernel

end CommandLine
end Intake
