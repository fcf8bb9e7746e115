import Intake.Answers.Basic
import Intake.Settings.Refusal
import Intake.Text.Bytes

set_option autoImplicit false

/-!
What answers fall back to: the locale of applicants who have chosen none, and the name of those
who have given none.
-/

namespace Intake

structure Settings where
  defaultLocale : Locale
  anonymousName : Text
  named : anonymousName ≠ ""

namespace Settings

def standard : Settings where
  defaultLocale := ⟨"en-US", by decide +kernel⟩
  anonymousName := "<Anonymous Applicant>"
  named := by decide

def localeKey : Text := "default_locale"
def nameKey : Text := "anonymous_applicant_name"

/-- A name is not empty and can be stored. -/
def name (s : Text) : Except SettingProblem { n : Text // n ≠ "" } :=
  if !s.isStorable then .error .notUnicode
  else if h : s ≠ "" then .ok ⟨s, h⟩ else .error .empty

def locale (s : Text) : Except SettingProblem Locale :=
  if !s.isStorable then .error .notUnicode
  else (Locale.parse s).mapError fun _ => .noLocale s

/-- What is left out keeps its standard value. -/
def ofParts (l : Option Locale) (n : Option { n : Text // n ≠ "" }) : Settings :=
  let l := l.getD standard.defaultLocale
  match n with
  | some n => ⟨l, n.1, n.2⟩
  | none => ⟨l, standard.anonymousName, standard.named⟩

/-- A text, also one that is spelt by bytes. -/
def textOf (v : Yaml.Value) : Except SettingProblem Text :=
  match v with
  | .text s => .ok s
  | .bytes bs => (Text.ofBytes? bs).elim (.error .notUnicode) .ok
  | _ => .error .notText

def fieldOf? (pairs : List (Yaml.Value × Yaml.Value)) (key : Text) : Option Yaml.Value :=
  pairs.lookup (.text key)

/-- A field that may be left out. -/
def field {α : Type} (read : Text → Except SettingProblem α)
    (pairs : List (Yaml.Value × Yaml.Value)) (key : Text) : Except SettingRefusal (Option α) :=
  match fieldOf? pairs key with
  | none => .ok none
  | some v => match (textOf v).bind read with
    | .ok a => .ok (some a)
    | .error e => .error ⟨some key, e, v⟩

section Files

variable [SettingsReader]

/-- The settings in a document, of which an empty one has none. -/
def ofDocument? (d : Yaml.Document) : Except Fault (Option Settings) :=
  match d.root, d.contentsOf? d.root with
  | .null, _ => .ok none
  | _, some (.mapping pairs) =>
    match field locale pairs localeKey, field name pairs nameKey with
    | .ok l, .ok n => .ok (some (ofParts l n))
    | .error e, .error f => .error (SettingRefusal.fault d [e, f])
    | .error e, _ => .error (SettingRefusal.fault d [e])
    | _, .error e => .error (SettingRefusal.fault d [e])
  | v, _ => .error (SettingRefusal.fault d [⟨none, .notMapping, v⟩])

def ofText? (text : Text) : Except Fault (Option Settings) :=
  ((SettingsReader.read text).mapError Yaml.Fault.toFault).bind ofDocument?

def ofText (text : Text) : Except Fault Settings := (ofText? text).map fun s => s.getD standard

end Files

/-- A member that may be left out. -/
def member {α : Type} (read : Text → Except SettingProblem α) (ms : Members) (key : Text) :
    Except Fault (Option α) :=
  match Members.get? key ms with
  | none => .ok none
  | some v => match v.text?.map read with
    | some (.ok a) => .ok (some a)
    | _ => .error .invalidRecord

/-- Settings given as members of an object; others than the two known ones do not matter. -/
def ofMembers (ms : Members) : Except Fault Settings := do
  return ofParts (← member locale ms localeKey) (← member name ms nameKey)

end Settings
end Intake
