import Intake.Settings.Yaml.Value

set_option autoImplicit false

/-!
Why values of a file make no settings, and what reads such a file. How the text of a file is read,
and in which words a refusal is reported, is left to libraries.
-/

namespace Intake

inductive SettingProblem where
  | notMapping
  | notText
  /-- Bytes that spell no text, or a text that cannot be stored. -/
  | notUnicode
  | empty
  | noLocale (tag : Text)
  deriving DecidableEq

/-- A problem with a field, or with the file as a whole. -/
structure SettingRefusal where
  field : Option Text
  problem : SettingProblem
  value : Yaml.Value

/-- What reads settings files. -/
class SettingsReader where
  read : Text → Except Yaml.Fault Yaml.Document
  /-- What a report says of the values of a document that are refused. -/
  refusal : Yaml.Document → List SettingRefusal → Text
  /-- There is nothing in an empty text. -/
  root_of_read_nil {d : Yaml.Document} : read [] = .ok d → d.root = .null

def SettingRefusal.fault [SettingsReader] (d : Yaml.Document) (rs : List SettingRefusal) : Fault :=
  .refusedSettings (SettingsReader.refusal d rs)

end Intake
