import Intake.Proofs.CommandLine.Reading
import Intake.Terminal

set_option autoImplicit false

/-!
# What runs store

Only five commands store anything, each in one file and as its last step but for what it says. A run
that ends well has stored the answers that its command makes of those in its files. Any other run
has left the files alone, with two exceptions: answers that cannot be encoded leave an empty file,
and a run may break off at a message behind a complete text.
-/

namespace Intake

/-! ## Answers to be stored -/

/-- How a run ends that is to store answers in a file, and the files behind it. -/
inductive Outcome (dir : Directory) (Made : Text → Answers → Prop) (Late : Ending → Prop) :
    Ending → Directory → Prop
  | untouched {e : Ending} (h : e ≠ .done) : Outcome dir Made Late e dir
  | emptied {name text : Text} {new : Answers} (made : Made name new)
      (whole : new.persisted = .ok text) (lone : text.isStorable = false) :
      Outcome dir Made Late (.crashed (.fault .unencodable)) (dir.write name [])
  | written {name text : Text} {new : Answers} {e : Ending} (made : Made name new)
      (whole : new.persisted = .ok text) (storable : text.isStorable = true)
      (ending : e = .done ∨ Late e) : Outcome dir Made Late e (dir.write name text)

namespace Outcome

variable {dir new : Directory} {Made : Text → Answers → Prop} {Late : Ending → Prop} {e : Ending}

theorem of_done (h : Outcome dir Made Late .done new) :
    ∃ name made text, Made name made ∧ made.persisted = .ok text ∧ text.isStorable = true ∧
      new = dir.write name text := by
  cases h with
  | untouched h => exact absurd rfl h
  | written made whole storable _ => exact ⟨_, _, _, made, whole, storable, rfl⟩

theorem of_ne_done (h : Outcome dir Made Late e new) (failed : e ≠ .done) :
    new = dir ∨ ∃ name made text, Made name made ∧ made.persisted = .ok text ∧
      (text.isStorable = false ∧ e = .crashed (.fault .unencodable) ∧ new = dir.write name [] ∨
        text.isStorable = true ∧ Late e ∧ new = dir.write name text) := by
  cases h with
  | untouched _ => exact .inl rfl
  | emptied made whole lone => exact .inr ⟨_, _, _, made, whole, .inl ⟨lone, rfl, rfl⟩⟩
  | written made whole storable ending =>
    have late := ending.resolve_left failed
    exact .inr ⟨_, _, _, made, whole, .inr ⟨storable, late, rfl⟩⟩

end Outcome

section Save

open Run

variable [Host] {dir : Directory} {f : FileName} {name : Text} {Made : Text → Answers → Prop}
  {Late : Ending → Prop}

theorem Manner.ends_save {m : Manner} {new : Answers} {closing : Run Unit} (made : Made name new)
    (noted : ∀ e, m.verbose = true → Display.note ("Wrote " ++ f.text) = .error e →
      Late (.crashed (.fault e)))
    (closed : ∀ files, Reads files Late closing fun _ => True) :
    Ends dir (m.save f name new >>= fun _ => closing) (Outcome dir Made Late) := by
  have encoded : Reads dir (· ≠ .done) (orCrash new.persisted) (new.persisted = .ok ·) :=
    reads_orCrash fun _ _ h => nomatch h
  unfold save
  rw [bind_assoc]
  refine encoded.ends (fun _ => .untouched) fun text whole => ?_
  split
  · rw [bind_assoc]
    apply ends_store
    have rest := (reads_note m noted).bind fun _ _ => closed (dir.write name text)
    exact rest.finish (fun _ => .written made whole ‹_› (.inl rfl)) fun e late =>
      .written made whole ‹_› (.inr late)
  · rename_i lone
    rw [bind_assoc]
    apply ends_store
    apply ends_crash
    exact .emptied made whole (by simpa using lone)

end Save

/-! ## Commands -/

namespace Command

open Run

/-- The file that a command stores answers in, if it is one that does. -/
def stored? : Command → Option FileName
  | put file _ _ _ | delete file _ | setEntities file _ _ | deleteEntities file _ _ => some file
  | merge target _ true => some target
  | _ => none

/-- What a command makes of the answers in its files, and the plain name of the file for it. -/
inductive Makes [FileSystem] (dir : Directory) : Command → Text → Answers → Prop
  | put {file : FileName} {name path value : Text} {type : Storage} {p : Path} {d new : Answers}
      (old : dir.Holds file name d) (parsed : Path.parse path = .ok p)
      (run : (Edit.putScalar p type value).run d = .ok () new) :
      Makes dir (.put file path value type) name new
  | delete {file : FileName} {name path : Text} {p : Path} {d new : Answers}
      (old : dir.Holds file name d) (parsed : Path.parse path = .ok p)
      (run : (Edit.delete p).run d = .ok () new) : Makes dir (.delete file path) name new
  | setEntities {file : FileName} {name path : Text} {names : List Text} {p : Path}
      {d new : Answers} (old : dir.Holds file name d) (parsed : Path.parse path = .ok p)
      (run : (Edit.putEntities p names).run d = .ok () new) :
      Makes dir (.setEntities file path names) name new
  | deleteEntities {file : FileName} {name path : Text} {indices : List Int} {p : Path}
      {d new : Answers} (old : dir.Holds file name d) (parsed : Path.parse path = .ok p)
      (run : (Edit.deleteEntities p indices).run d = .ok true new) :
      Makes dir (.deleteEntities file path indices) name new
  | merge {target source : FileName} {name beside : Text} {d other new : Answers}
      {report : ConflictReport} (old : dir.Holds target name d)
      (incoming : dir.Holds source beside other)
      (run : Answers.ofVersions [d, other] = .ok (new, report)) :
      Makes dir (.merge target source true) name new

theorem Makes.differs [FileSystem] {dir : Directory} {c : Command} {name : Text} {new : Answers}
    (h : c.Makes dir name new) (text : Text) : dir.Differs (dir.write name text) name text := by
  have held : ∃ f d, dir.Holds f name d := by
    cases h <;> exact ⟨_, _, ‹dir.Holds _ name _›⟩
  obtain ⟨_, _, _, _, found, _⟩ := held
  exact Directory.differs_write found text

def isMerge : Command → Bool
  | merge _ _ _ => true
  | _ => false

/-- What a run may break off with behind a complete text: a merge goes on with its conflicts, and a
verbose run notes the name of the file. -/
def Late (m : Manner) (c : Command) (f : FileName) (e : Ending) : Prop :=
  e.IsFault ∧ (c.isMerge = true ∨ m.verbose = true ∧ .char '[' ∈ f.text)

variable [Host] {dir : Directory} (m : Manner)

theorem noted_late {c : Command} {f : FileName} (e : Fault) (verbose : m.verbose = true)
    (unshown : Display.note ("Wrote " ++ f.text) = .error e) :
    c.Late m f (.crashed (.fault e)) := by
  refine ⟨⟨e, rfl⟩, .inr ⟨verbose, ?_⟩⟩
  by_contra plain
  -- Without a bracket in the name there would be no tag at all.
  have wrote : Untagged ("Wrote " : String) := .of_notMem (by decide)
  rw [Display.note_untagged (wrote.append (.of_notMem plain))] at unshown
  cases unshown

section Steps

variable {Made : Text → Answers → Prop} {Late : Ending → Prop}

theorem ends_load {file : FileName} {next : Text × Answers → Run Unit}
    (h : ∀ name d, dir.Holds file name d → Ends dir (next (name, d)) (Outcome dir Made Late)) :
    Ends dir (load file >>= next) (Outcome dir Made Late) :=
  (reads_load file).ends (fun _ => .untouched) fun r old => h r.1 r.2 old

theorem ends_parsePath {path : Text} {next : Path → Run Unit}
    (h : ∀ p, Path.parse path = .ok p → Ends dir (next p) (Outcome dir Made Late)) :
    Ends dir (parsePath path >>= next) (Outcome dir Made Late) :=
  (reads_parsePath path).ends (fun _ => .untouched) h

theorem ends_edit {α : Type} {aim : Text} {x : Edit α} {d : Answers} {next : α × Answers → Run Unit}
    (h : ∀ a new, x.run d = .ok a new → Ends dir (next (a, new)) (Outcome dir Made Late)) :
    Ends dir (edit aim x d >>= next) (Outcome dir Made Late) :=
  (reads_edit aim x d).ends (fun _ => .untouched) fun r run => h r.1 r.2 run

omit [Host] in
theorem ends_orCrash {α : Type} {y : Except Fault α} {next : α → Run Unit}
    (h : ∀ a, y = .ok a → Ends dir (next a) (Outcome dir Made Late)) :
    Ends dir (orCrash y >>= next) (Outcome dir Made Late) :=
  Reads.ends (reads_orCrash fun _ _ => nofun) (fun _ => .untouched) h

theorem ends_refuse {message : Text} : Ends dir (refuse message) (Outcome dir Made Late) := by
  have refused : Reads dir (· ≠ .done) (refuse message : Run Unit) fun _ => False :=
    reads_refuse message
  exact refused.finish False.elim fun _ => .untouched

end Steps

omit [Host] in
theorem untagged_count {before behind : Text} {n : Int} (hb : .char '[' ∉ before)
    (ha : .char '[' ∉ behind) : Untagged (before ++ Numeral.ofInt n ++ behind) :=
  ((Untagged.of_notMem hb).append (Numeral.untagged_ofInt n)).append (.of_notMem ha)

/-- What a merge says of its conflicts. -/
theorem reads_closing (report : ConflictReport) (f : FileName) :
    Reads dir Ending.IsFault (do
      if report.hasConflicts then
        m.confirm (Numeral.ofInt report.total ++ " conflicting path(s) kept from " ++ f.text)
      m.give report.toJson (.panel "Merge report" report.toJson)) fun _ => True := by
  extract_lets goOn
  split
  · exact (m.reads_confirm _).bind fun _ _ => m.reads_give _ _
  · exact m.reads_give _ _

theorem ends_execute {c : Command} {f : FileName} (h : c.stored? = some f) :
    Ends dir (c.execute m) (Outcome dir (c.Makes dir) (c.Late m f)) := by
  cases c with
  | print file => cases h
  | read file path type => cases h
  | entities file path => cases h
  | evaluate file query => cases h
  | put file path value type =>
    cases h
    rw [execute]
    refine ends_load fun name d old => ends_parsePath fun p parsed => ends_edit fun _ new run => ?_
    refine Manner.ends_save (.put old parsed run) (noted_late m) fun _ => ?_
    apply m.reads_confirm_untagged
    exact (Untagged.of_notMem (by decide)).append (Path.untagged_text_of_parse parsed)
  | delete file path =>
    cases h
    rw [execute]
    refine ends_load fun name d old => ends_parsePath fun p parsed => ends_edit fun _ new run => ?_
    refine Manner.ends_save (.delete old parsed run) (noted_late m) fun _ => ?_
    apply m.reads_confirm_untagged
    refine Untagged.append ?_ (Path.untagged_text_of_parse parsed)
    split <;> exact .of_notMem (by decide)
  | setEntities file path names =>
    cases h
    rw [execute]
    refine ends_load fun name d old => ends_parsePath fun p parsed => ends_edit fun _ new run => ?_
    refine Manner.ends_save (.setEntities old parsed run) (noted_late m) fun _ => ?_
    apply m.reads_confirm_untagged
    refine Untagged.append ?_ (Path.untagged_text_of_parse parsed)
    exact untagged_count (by decide) (by decide)
  | deleteEntities file path indices =>
    cases h
    rw [execute]
    refine ends_load fun name d old => ends_parsePath fun p parsed => ?_
    refine ends_edit fun deleted new run => ?_
    cases deleted with
    | false => exact ends_refuse
    | true =>
      refine Manner.ends_save (.deleteEntities old parsed run) (noted_late m) fun _ => ?_
      apply m.reads_confirm_untagged
      refine Untagged.append ?_ (Path.untagged_text_of_parse parsed)
      exact untagged_count (by decide) (by decide)
  | merge target source write =>
    cases write with
    | false => cases h
    | true =>
      cases h
      rw [execute]
      refine ends_load fun name d old => ends_load fun _ other incoming => ?_
      -- Conflicts are noted one by one before anything is stored, and shown together behind that.
      refine Reads.ends (m.reads_notes _) (fun e h => .untouched h.ne_done) fun _ _ => ?_
      refine ends_orCrash fun r run => ?_
      obtain ⟨merged, report⟩ := r
      refine Manner.ends_save (.merge old incoming run) (noted_late m) fun files => ?_
      refine Reads.mono (?_ : Reads files Ending.IsFault _ fun _ => True)
        (fun e h => ⟨h, .inl rfl⟩) fun _ h => h
      exact Reads.bind (m.reads_confirm _) fun _ _ => reads_closing m report f

/-- All other commands leave the files alone. -/
theorem reads_execute {c : Command} (h : c.stored? = none) :
    Reads dir (fun _ => True) (c.execute m) fun _ => True := by
  cases c with
  | put file path value type => cases h
  | delete file path => cases h
  | setEntities file path names => cases h
  | deleteEntities file path indices => cases h
  | print file =>
    rw [execute]
    exact (reads_load file).keeps.bind fun r _ => (m.reads_give _ _).keeps
  | read file path type =>
    rw [execute]
    refine (reads_load file).keeps.bind fun r _ => (reads_parsePath path).keeps.bind fun p _ => ?_
    refine Reads.bind (reads_orCrash fun _ _ => trivial) fun found _ => ?_
    split
    · exact Reads.keeps (P := fun _ => False) (reads_refuse _)
    · refine Reads.bind (reads_orCrash fun _ _ => trivial) fun shown _ => ?_
      exact (m.reads_give _ _).keeps
  | entities file path =>
    rw [execute]
    refine (reads_load file).keeps.bind fun r _ => (reads_parsePath path).keeps.bind fun p _ => ?_
    refine Reads.bind (reads_orCrash fun _ _ => trivial) fun names _ => ?_
    split
    · exact (reads_say _).keeps
    · exact (m.reads_give _ _).keeps
  | evaluate file query =>
    rw [execute]
    refine (reads_load file).keeps.bind fun r _ => (reads_report _ _).keeps.bind fun q _ => ?_
    refine (reads_report _ _).keeps.bind fun found _ => ?_
    refine Reads.bind (m.reads_give _ _).keeps fun _ _ => ?_
    split
    · exact reads_throw trivial
    · exact reads_pure trivial
  | merge target source write =>
    cases write with
    | true => cases h
    | false =>
      rw [execute]
      refine (reads_load target).keeps.bind fun r _ => (reads_load source).keeps.bind fun t _ => ?_
      refine Reads.bind (m.reads_notes _).keeps fun _ _ => ?_
      refine Reads.bind (reads_orCrash fun _ _ => trivial) fun merged _ => ?_
      exact (reads_closing m merged.2 target).keeps

end Command

/-! ## Command lines -/

namespace CommandLine

open Run

section Hosted

variable [Host]

/-- The command that a command line asks for, and the manner in which to carry it out. -/
def command? (args : List Text) : Option (Manner × Command) :=
  match OptionReader.words? Command.globalSpecs false args with
  | none => none
  | some w =>
    if w.has .help then none
    else match w.others with
      | [] => none
      | name :: rest =>
        match Verb.ofName? name with
        | none => none
        | some v =>
          match Command.request v rest with
          | .command c => some (mannerOf w, c)
          | _ => none

/-- How a command line is taken: it makes no sense, it asks for help, or it comes to a verb. -/
theorem runArguments_cases (args : List Text) :
    (runArguments args = throw .misuse ∧ (command? args = none ∨
      ∃ w name, OptionReader.words? Command.globalSpecs false args = some w ∧
        w.valueOf? Command.configSpec = some name ∧ FileName.isName name = false)) ∨
    (runArguments args = pure () ∧ command? args = none) ∨
    ∃ w v rest, OptionReader.words? Command.globalSpecs false args = some w ∧
      runArguments args = runVerb v w rest ∧
      ∀ m c, command? args = some (m, c) ↔
        mannerOf w = m ∧ Command.request v rest = .command c := by
  unfold runArguments command?
  cases words : OptionReader.words? Command.globalSpecs false args with
  | none => exact .inl ⟨rfl, .inl rfl⟩
  | some w =>
    dsimp only
    by_cases help : w.has .help = true
    · simp only [if_pos help]
      exact .inr (.inl ⟨trivial, trivial⟩)
    simp only [if_neg help]
    split
    · next unnamed =>
      obtain ⟨name, given, bad⟩ := (Option.any_eq_true _ _).1 unnamed
      exact .inl ⟨rfl, .inr ⟨w, name, rfl, given, by simpa using bad⟩⟩
    cases w.others with
    | nil => exact .inl ⟨rfl, .inl rfl⟩
    | cons name rest =>
      dsimp only
      cases Verb.ofName? name with
      | none =>
        dsimp only
        cases OptionReader.words? Command.globalSpecs false (name :: rest) with
        | none => exact .inl ⟨rfl, .inl rfl⟩
        | some again =>
          dsimp only
          by_cases helped : again.has .help = true
          · exact .inr (.inl ⟨if_pos helped, rfl⟩)
          · exact .inl ⟨if_neg helped, .inl rfl⟩
      | some v =>
        dsimp only
        refine .inr (.inr ⟨w, v, rest, rfl, rfl, fun m c => ?_⟩)
        cases Command.request v rest <;> simp

variable {dir : Directory}

theorem reads_checkSettings (f : FileName) :
    Reads dir (· ≠ .done) (checkSettings f) fun _ => True := by
  refine (reads_file _ f reads_refuse).bind fun r _ => reads_get.bind fun s _ => ?_
  split
  · rename_i note _
    cases note with
    | none => exact reads_pure trivial
    | some t => exact reads_tell t
  · split
    · exact reads_refuse _
    · exact reads_throw fun h => nomatch h

section Ends

variable {outcome : Ending → Directory → Prop} (early : ∀ e, e ≠ .done → outcome e dir)

include early

omit [Host] in
theorem ends_misuse : Ends dir (throw .misuse) outcome := by
  intro s hs
  subst hs
  exact early _ fun h => nomatch h

theorem ends_runVerb {v : Verb} {w : Words} {args : List Text}
    (explained : Command.request v args = .help → outcome .done dir)
    (executed : ∀ c, Command.request v args = .command c →
      Ends dir (c.execute (mannerOf w)) outcome) : Ends dir (runVerb v w args) outcome := by
  unfold runVerb
  extract_lets manner goOn
  have next : ∀ u, Ends dir (goOn u) outcome := by
    intro u
    simp only [goOn]
    split
    · exact ends_misuse early
    · rename_i request
      exact ends_pure (explained request)
    · rename_i c request
      refine Reads.ends (P := fun _ => True) (reads_modify fun _ => rfl) early fun _ _ => ?_
      exact executed c request
  split
  · exact (reads_checkSettings _).ends early fun u _ => next u
  · exact next ()

/-- Before its command is carried out, a run only reads. -/
theorem ends_runArguments {args : List Text}
    (explained : command? args = none → outcome .done dir)
    (executed : ∀ m c, command? args = some (m, c) → Ends dir (c.execute m) outcome) :
    Ends dir (runArguments args) outcome := by
  obtain ⟨run, _⟩ | ⟨run, none⟩ | ⟨w, v, rest, _, run, asked⟩ := runArguments_cases args
  all_goals rw [run]
  · exact ends_misuse early
  · exact ends_pure (explained none)
  · apply ends_runVerb early
    · intro request
      apply explained
      refine Option.eq_none_iff_forall_ne_some.2 fun (m, c) found => ?_
      cases request.symm.trans ((asked m c).1 found).2
    · intro c request
      exact executed (mannerOf w) c ((asked _ c).2 ⟨rfl, request⟩)

end Ends

theorem ends_run {s : Shell} {args : List Text} {outcome : Ending → Directory → Prop}
    (h : Ends s.directory (runArguments args) outcome) :
    outcome (run s args).1 (run s args).2.directory := by
  have ended := h { s with messages := [], outputs := [] } rfl
  unfold run EStateM.run
  generalize runArguments args _ = r at ended
  cases r with
  | ok u after => exact ended
  | error e after => exact ended

theorem directory_of_reading (s : Shell) {args : List Text}
    (h : ∀ m c, command? args = some (m, c) → c.stored? = none) :
    (run s args).2.directory = s.directory := by
  have ended : Ends s.directory (runArguments args) fun _ after => after = s.directory := by
    apply ends_runArguments
    · exact fun _ _ => rfl
    · exact fun _ => rfl
    · intro m c asked
      exact (Command.reads_execute m (h m c asked)).finish (fun _ => rfl) fun _ _ => rfl
  exact ends_run ended

theorem outcome_of_storing (s : Shell) {args : List Text} {m : Manner} {c : Command} {f : FileName}
    (asked : command? args = some (m, c)) (file : c.stored? = some f) :
    Outcome s.directory (c.Makes s.directory) (c.Late m f) (run s args).1
      (run s args).2.directory := by
  apply ends_run
  apply ends_runArguments
  · exact fun _ => .untouched
  · intro none
    rw [asked] at none
    cases none
  · intro m' c' same
    rw [asked] at same
    cases same
    exact Command.ends_execute m file

/-- What a command line does to the files. A command that is to store nothing leaves them alone,
however it ends. A run that ends well has stored in the file of its command what that makes of the
answers there, and nothing else. Any other run leaves the files alone, unless the answers cannot be
encoded, which leaves their file empty, or the run breaks off at a message after it has stored
them. -/
theorem files_after_run (s : Shell) (args : List Text) :
    let old := s.directory
    let ending := (run s args).1
    let new := (run s args).2.directory
    ((∀ m c, command? args = some (m, c) → c.stored? = none) → new = old) ∧
    (∀ m c f, command? args = some (m, c) → c.stored? = some f → ending.exitCode = 0 →
      ∃ name made text, c.Makes old name made ∧ made.persisted = .ok text ∧
        text.isStorable = true ∧ old.Differs new name text) ∧
    (ending.exitCode ≠ 0 → new = old ∨ ∃ m c f name made text,
      command? args = some (m, c) ∧ c.stored? = some f ∧ c.Makes old name made ∧
        made.persisted = .ok text ∧
        (text.isStorable = false ∧ ending = .crashed (.fault .unencodable) ∧
            old.Differs new name [] ∨
          text.isStorable = true ∧ c.Late m f ending ∧ old.Differs new name text)) := by
  intro old ending new
  have storing : ∀ m c f, command? args = some (m, c) → c.stored? = some f →
      Outcome old (c.Makes old) (c.Late m f) ending new := fun _ _ _ => outcome_of_storing s
  refine ⟨directory_of_reading s, ?_, ?_⟩
  · intro m c f asked file exit
    have outcome := storing m c f asked file
    rw [(Ending.exitCode_eq_zero_iff ending).1 exit] at outcome
    obtain ⟨name, made, text, makes, whole, storable, written⟩ := outcome.of_done
    refine ⟨name, made, text, makes, whole, storable, ?_⟩
    rw [written]
    exact makes.differs text
  · intro exit
    have failed : ending ≠ .done := fun done => exit ((Ending.exitCode_eq_zero_iff _).2 done)
    by_cases asked : ∃ m c f, command? args = some (m, c) ∧ c.stored? = some f
    · obtain ⟨m, c, f, asked, file⟩ := asked
      rcases (storing m c f asked file).of_ne_done failed with
        kept | ⟨name, made, text, makes, whole, rest⟩
      · exact .inl kept
      · refine .inr ⟨m, c, f, name, made, text, asked, file, makes, whole, ?_⟩
        rcases rest with ⟨lone, crash, emptied⟩ | ⟨storable, late, written⟩
        · rw [emptied]
          exact .inl ⟨lone, crash, makes.differs []⟩
        · rw [written]
          exact .inr ⟨storable, late, makes.differs text⟩
    · have reading : ∀ m c, command? args = some (m, c) → c.stored? = none := by
        intro m c found
        rw [Option.eq_none_iff_forall_ne_some]
        exact fun f file => asked ⟨m, c, f, found, file⟩
      exact .inl (directory_of_reading s reading)

end Hosted

/-- Half of a surrogate pair, escaped in a file, stays as it is when another value is put beside it.
The answers cannot be encoded then, and all that was in the file is lost. -/
theorem lone_half_empties_file :
    let old : Shell := .start [("f.json", "\x7b\"a\":\"\\ud800\"\x7d")]
    let ended := run old ["put", "f.json", "b", "x"]
    ended.1.exitCode ≠ 0 ∧ ended.2.directory.files = [(("f.json" : Text), [])] := by
  decide +kernel

-- A conflict at a key that is garbled markup is shown only behind the merged answers.
example :
    let old : Shell := .start [("a.json", "\x7b\"[/b]\":1\x7d"), ("b.json", "\x7b\"[/b]\":2\x7d")]
    let ended := run old ["merge", "a.json", "b.json", "-w"]
    ended.1 = .crashed (.fault .garbledMarkup) ∧
      ended.2.directory.files.lookup ("a.json" : Text) =
        some (Text.ofString "\x7b\"applicant\":\x7b\x7d,\"[/b]\":1\x7d") := by
  decide +kernel

end CommandLine

end Intake
