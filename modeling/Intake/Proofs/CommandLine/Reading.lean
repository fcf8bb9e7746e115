import Intake.CommandLine.Run
import Intake.Proofs.CommandLine.Wording

set_option autoImplicit false

/-!
# Parts of runs that leave the files alone

`Reads` says of a part of a run what it gives, what it breaks off with, and that the files are the
same in both cases. It holds of everything a command does but `Manner.save`. `Ends` says how a whole
run ends and which files it leaves behind.
-/

namespace Intake

/-! ## Files -/

namespace Directory

/-- One file has this text now, and the others are as they were. -/
def Differs (old new : Directory) (name text : Text) : Prop :=
  new.files.lookup name = some text ∧
    ∀ other, other ≠ name → new.files.lookup other = old.files.lookup other

theorem lookup_cons_eq (a k v : Text) (rest : List (Text × Text)) :
    List.lookup a ((k, v) :: rest) = if a = k then some v else List.lookup a rest := by
  by_cases same : a = k
  · rw [same, List.lookup_cons_self, if_pos rfl]
  · rw [if_neg same, List.lookup_cons, beq_eq_false_iff_ne.2 same]

theorem lookup_write (dir : Directory) (name text other : Text) :
    (dir.write name text).files.lookup other =
      if other = name then (dir.files.lookup name).map fun _ => text
      else dir.files.lookup other := by
  obtain ⟨files⟩ := dir
  unfold write
  induction files with
  | nil => split <;> rfl
  | cons file rest ih =>
    obtain ⟨k, v⟩ := file
    rw [List.map_cons]
    by_cases here : k = name
    · subst here
      by_cases same : other = k
      · simp [same]
      · simp only [↓reduceIte, lookup_cons_eq, same, ih]
    · simp only [if_neg here, lookup_cons_eq, ih]
      by_cases same : other = k
      · simp [same, here]
      · simp [same, Ne.symm here]

theorem differs_write {dir : Directory} {name old : Text} (h : dir.files.lookup name = some old)
    (text : Text) : dir.Differs (dir.write name text) name text := by
  constructor
  · rw [lookup_write, if_pos rfl, h]
    rfl
  · intro other ne
    rw [lookup_write, if_neg ne]

section Files

variable [FileSystem]

/-- The answers in the file that a name leads to, which has a plain name of its own. -/
def Holds (dir : Directory) (f : FileName) (name : Text) (d : Answers) : Prop :=
  ∃ text, FileSystem.entry dir f = .file name text ∧ dir.files.lookup name = some text ∧
    Answers.ofText text = .ok d

theorem holds_of_entry {dir : Directory} {f : FileName} {name text : Text} {d : Answers}
    (h : FileSystem.entry dir f = .file name text) (read : Answers.ofText text = .ok d) :
    dir.Holds f name d := by
  -- There are no answers in a file with nothing in it.
  have filled : text ≠ [] := by
    rintro rfl
    cases read
  exact ⟨text, h, FileSystem.lookup_of_entry h filled, read⟩

end Files

end Directory

/-! ## Parts of a run -/

/-- The run broke off at something that cannot be stored or shown. -/
def Ending.IsFault (e : Ending) : Prop := ∃ fault, e = .crashed (.fault fault)

theorem Ending.exitCode_eq_zero_iff (e : Ending) : e.exitCode = 0 ↔ e = .done := by
  cases e <;> simp [Ending.exitCode]

theorem Ending.IsFault.ne_done {e : Ending} (h : e.IsFault) : e ≠ .done := by
  obtain ⟨fault, rfl⟩ := h
  exact fun h => nomatch h

namespace Run

variable {α β : Type} {dir : Directory} {stops : Ending → Prop}

/-- Started with these files, the part leaves them as they are. It gives such a value, or breaks off
with such an ending. -/
def Reads (dir : Directory) (stops : Ending → Prop) (x : Run α) (value : α → Prop) : Prop :=
  ∀ s, s.directory = dir →
    match x s with
    | .ok a after => after.directory = dir ∧ value a
    | .error e after => after.directory = dir ∧ stops e

/-- Started with these files, a run ends so, with so much in the files behind it. -/
def Ends (dir : Directory) (x : Run Unit) (outcome : Ending → Directory → Prop) : Prop :=
  ∀ s, s.directory = dir →
    match x s with
    | .ok () after => outcome .done after.directory
    | .error e after => outcome e after.directory

variable {x : Run α} {P : α → Prop}

theorem Reads.bind {f : α → Run β} {Q : β → Prop} (first : Reads dir stops x P)
    (second : ∀ a, P a → Reads dir stops (f a) Q) : Reads dir stops (x >>= f) Q := by
  intro s hs
  have before := first s hs
  simp only [Bind.bind, EStateM.bind]
  generalize x s = r at before
  cases r with
  | ok a after => exact second a before.2 after before.1
  | error e after => exact before

theorem Reads.ends {f : α → Run Unit} {outcome : Ending → Directory → Prop}
    (first : Reads dir stops x P) (early : ∀ e, stops e → outcome e dir)
    (second : ∀ a, P a → Ends dir (f a) outcome) : Ends dir (x >>= f) outcome := by
  intro s hs
  have before := first s hs
  simp only [Bind.bind, EStateM.bind]
  generalize x s = r at before
  cases r with
  | ok a after => exact second a before.2 after before.1
  | error e after =>
    obtain ⟨same, stop⟩ := before
    show outcome e after.directory
    rw [same]
    exact early e stop

theorem Reads.finish {x : Run Unit} {P : Unit → Prop} {outcome : Ending → Directory → Prop}
    (h : Reads dir stops x P) (done : P () → outcome .done dir)
    (early : ∀ e, stops e → outcome e dir) : Ends dir x outcome := by
  intro s hs
  have run := h s hs
  generalize x s = r at run
  cases r with
  | ok a after =>
    show outcome .done after.directory
    rw [run.1]
    exact done run.2
  | error e after =>
    show outcome e after.directory
    rw [run.1]
    exact early e run.2

theorem Reads.mono {more : Ending → Prop} {Q : α → Prop} (h : Reads dir stops x P)
    (stop : ∀ e, stops e → more e) (value : ∀ a, P a → Q a) : Reads dir more x Q := by
  intro s hs
  have run := h s hs
  generalize x s = r at run
  cases r with
  | ok a after => exact ⟨run.1, value a run.2⟩
  | error e after => exact ⟨run.1, stop e run.2⟩

/-- That the files stay as they are may be all that matters. -/
theorem Reads.keeps (h : Reads dir stops x P) : Reads dir (fun _ => True) x fun _ => True :=
  h.mono (fun _ _ => trivial) fun _ _ => trivial

theorem reads_pure {a : α} (h : P a) : Reads dir stops (pure a) P := fun _ hs => ⟨hs, h⟩

theorem ends_pure {outcome : Ending → Directory → Prop} (h : outcome .done dir) :
    Ends dir (pure ()) outcome := by
  intro s hs
  subst hs
  exact h

theorem ends_store {name text : Text} {next : Run Unit} {outcome : Ending → Directory → Prop}
    (h : Ends (dir.write name text) next outcome) :
    Ends dir (store name text >>= fun _ => next) outcome := by
  intro s hs
  subst hs
  exact h _ rfl

theorem ends_crash {e : Fault} {next : α → Run Unit}
    {outcome : Ending → Directory → Prop} (h : outcome (.crashed (.fault e)) dir) :
    Ends dir (crash e >>= next) outcome := by
  intro s hs
  subst hs
  exact h

theorem reads_throw {e : Ending} (h : stops e) : Reads dir stops (throw e) P := fun _ hs => ⟨hs, h⟩

theorem reads_get : Reads dir stops get fun s : Shell => s.directory = dir := fun _ hs => ⟨hs, hs⟩

theorem reads_modify {f : Shell → Shell} (h : ∀ s, (f s).directory = s.directory) :
    Reads dir stops (modify f) fun _ => True :=
  fun s hs => ⟨(h s).trans hs, trivial⟩

theorem reads_crash (e : Fault) : Reads dir Ending.IsFault (crash e) P := reads_throw ⟨e, rfl⟩

theorem reads_orCrash {y : Except Fault α} (h : ∀ e, y = .error e → stops (.crashed (.fault e))) :
    Reads dir stops (orCrash y) fun a => y = .ok a := by
  cases y with
  | ok a => exact reads_pure rfl
  | error e => exact reads_throw (h e rfl)

theorem reads_tell (message : Text) : Reads dir stops (tell message) fun _ => True :=
  reads_modify fun _ => rfl

section Messages

variable [Host]

theorem reads_say (message : Text) : Reads dir Ending.IsFault (say message) fun _ => True :=
  (reads_orCrash fun e _ => ⟨e, rfl⟩).bind fun _ _ => reads_tell message

theorem reads_say_untagged {message : Text} (h : Untagged message) :
    Reads dir stops (say message) fun _ => True := by
  refine (reads_orCrash fun e he => ?_).bind fun _ _ => reads_tell message
  rw [Display.message_untagged h] at he
  cases he

theorem reads_refuse (message : Text) : Reads dir (· ≠ .done) (refuse message) P :=
  ((reads_say message).mono (fun _ h => h.ne_done) fun _ h => h).bind fun _ _ =>
    reads_throw (by decide)

theorem reads_report (aim : Text) (y : Except Fault α) :
    Reads dir (· ≠ .done) (report aim y) fun a => y = .ok a := by
  cases y with
  | ok a => exact reads_pure rfl
  | error e =>
    simp only [report]
    split
    · exact reads_refuse _
    · exact reads_throw (fun h => nomatch h)

theorem reads_edit (aim : Text) (y : Edit α) (d : Answers) :
    Reads dir (· ≠ .done) (edit aim y d) fun r => y.run d = .ok r.1 r.2 := by
  unfold edit
  cases y.run d with
  | ok a new => exact reads_pure rfl
  | error e new => exact (reads_report aim _).mono (fun _ h => h) fun _ h => nomatch h

theorem reads_file (missing : Text) {undecoded : Text → Run (Text × Text)} (f : FileName)
    (failed : ∀ detail, Reads dir (· ≠ .done) (undecoded detail) fun _ => False) :
    Reads dir (· ≠ .done) (file missing undecoded f) fun r =>
      FileSystem.entry dir f = .file r.1 r.2 := by
  refine reads_get.bind fun s hs => ?_
  subst hs
  cases FileSystem.entry s.directory f with
  | missing => exact reads_refuse _
  | directory => exact reads_throw (by decide)
  | tooLong => exact reads_throw (by decide)
  | undecodable detail => exact (failed detail).mono (fun _ h => h) fun _ h => h.elim
  | file name text => exact reads_pure rfl

theorem reads_load (f : FileName) :
    Reads dir (· ≠ .done) (load f) fun r => dir.Holds f r.1 r.2 := by
  refine (reads_file _ f ?_).bind fun r found => ?_
  · exact fun _ => reads_throw nofun
  refine (reads_report _ _).bind fun d read => reads_pure ?_
  exact Directory.holds_of_entry found read

theorem reads_parsePath (path : Text) :
    Reads dir (· ≠ .done) (Command.parsePath path) fun p => Path.parse path = .ok p :=
  reads_report _ _

theorem reads_print (o : Output) : Reads dir Ending.IsFault (print o) fun _ => True := by
  unfold print
  refine reads_get.bind fun s hs => ?_
  extract_lets goOn
  have shown : ∀ u, Reads dir Ending.IsFault (goOn u) fun _ => True := by
    intro u
    refine (reads_orCrash fun e _ => ⟨e, rfl⟩).bind fun _ _ => ?_
    split
    · exact reads_modify fun _ => rfl
    · exact Reads.bind (reads_modify fun _ => rfl) fun _ _ => reads_crash _
  split
  · exact Reads.bind (P := fun _ => True) (reads_crash _) fun u _ => shown u
  · exact shown ()

end Messages

end Run

namespace Manner

open Run

variable [Host] {dir : Directory} {stops : Ending → Prop} (m : Manner)

theorem reads_confirm (message : Text) :
    Reads dir Ending.IsFault (m.confirm message) fun _ => True := by
  unfold confirm
  split
  · exact reads_pure trivial
  · exact reads_say message

theorem reads_confirm_untagged {message : Text} (h : Untagged message) :
    Reads dir stops (m.confirm message) fun _ => True := by
  unfold confirm
  split
  · exact reads_pure trivial
  · exact reads_say_untagged h

theorem reads_note {message : Text}
    (h : ∀ e, m.verbose = true → Display.note message = .error e → stops (.crashed (.fault e))) :
    Reads dir stops (m.note message) fun _ => True := by
  unfold note
  split
  · exact (reads_orCrash fun e => h e ‹_›).bind fun _ _ => reads_tell message
  · exact reads_pure trivial

theorem reads_notes (messages : List Text) :
    Reads dir Ending.IsFault (forIn messages PUnit.unit fun t _ => do
      m.note t
      return .yield PUnit.unit) fun _ => True := by
  induction messages with
  | nil => exact reads_pure trivial
  | cons t rest ih =>
    simp only [List.forIn_cons, bind_assoc, pure_bind] at ih ⊢
    exact Reads.bind (m.reads_note fun e _ _ => ⟨e, rfl⟩) fun _ _ => ih

theorem reads_give (v : Json) (otherwise : Output) :
    Reads dir Ending.IsFault (m.give v otherwise) fun _ => True :=
  reads_print _

end Manner
end Intake
