import Intake.Answers.Name
import Intake.CommandLine.Directory
import Intake.Settings.Basic

set_option autoImplicit false

/-!
Settings over the life of a program. They come from a file that the environment may name, are kept
once they have been read, and are read again only on demand. Reading that fails changes nothing.
-/

namespace Intake

structure Session where
  directory : Directory
  /-- The name of the settings file in the environment, if there is one. -/
  named : Option Text
  cached : Option Settings

namespace Session

def start : Session := ⟨⟨[]⟩, none, none⟩

variable [FileSystem] [SettingsReader]

/-- What the name of a settings file leads to. -/
def entry (s : Session) (name : Text) : Entry := FileSystem.entry s.directory (.parse name)

/-- The settings in a file, or the standard ones where there is no file. -/
def load (s : Session) (name : Text) : Except Crash Settings :=
  if FileName.isName name then
    match s.entry name with
    | .missing => .ok .standard
    | .directory => .error .isDirectory
    | .tooLong => .error .nameTooLong
    | .undecodable detail => .error (.undecodable detail)
    | .file _ text => (Settings.ofText text).mapError .fault
  else .ok .standard

/-- The settings in the file that the environment names. An empty name is none. -/
def loadNamed (s : Session) : Except Crash Settings :=
  match s.named with
  | none => .ok .standard
  | some name => if name = "" then .ok .standard else s.load name

/-- Goes on with a result, or breaks off as it does. -/
def ofExcept {α : Type} (x : Except Crash α) : EStateM Crash Session α := fun s =>
  match x with
  | .ok a => .ok a s
  | .error e => .error e s

def keep (settings : Settings) (s : Session) : Session := { s with cached := some settings }

def reset (s : Session) : Session := { s with cached := none }

def current (reload : Bool) : EStateM Crash Session Settings := fun s =>
  match s.cached, reload with
  | some settings, false => .ok settings s
  | _, _ =>
    match s.loadNamed with
    | .ok settings => .ok settings (s.keep settings)
    | .error e => .error e s

/-- Settings are asked for only where answers hold no name. -/
def applicantName (d : Answers) : EStateM Crash Session Text :=
  match d.name? with
  | some name => pure name
  | none => do return (← current false).anonymousName

def preferredLocale (d : Answers) : EStateM Crash Session Locale :=
  match d.locale with
  | some l => pure l
  | none => do return (← current false).defaultLocale

/-- What can happen to settings: to the files, to the environment, and to what is kept. -/
inductive Event where
  | write (name text : Text)
  | remove (name : Text)
  | name (name : Text)
  | unname
  | load (name : Text)
  | loadNamed
  | get (reload : Bool)
  /-- Keeps the settings that are given by their fields. -/
  | install (fields : Members)
  | reset
  | applicantName (d : Answers)
  | preferredLocale (d : Answers)

inductive Reply where
  | nothing
  | settings (s : Settings)
  | text (s : Text)

def changes (f : Session → Session) : EStateM Crash Session Reply := fun s => .ok .nothing (f s)

def step (e : Event) : EStateM Crash Session Reply :=
  match e with
  | .write name text => changes fun s => { s with directory := s.directory.put name text }
  | .remove name => changes fun s => { s with directory := s.directory.remove name }
  | .name name => changes fun s => { s with named := some name }
  | .unname => changes fun s => { s with named := none }
  | .load name => do return .settings (← ofExcept ((← get).load name))
  | .loadNamed => do return .settings (← ofExcept (← get).loadNamed)
  | .get reload => do return .settings (← current reload)
  | .install fields => do
    let settings ← ofExcept ((Settings.ofMembers fields).mapError .fault)
    changes (keep settings)
  | .reset => changes reset
  | .applicantName d => do return .text (← Session.applicantName d)
  | .preferredLocale d => do return .text (← Session.preferredLocale d).tag

end Session
end Intake
