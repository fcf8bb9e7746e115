import Intake.Settings.Refusal
import Intake.Settings.Yaml.Shown
import Intake.Text.Bytes

set_option autoImplicit false

/-!
How refused settings are reported: a line that counts the problems, and for each the field, what is
wrong with it, and in brackets the value.
-/

namespace Intake

namespace SettingProblem

def message : SettingProblem → Text
  | notMapping => "Input should be a valid dictionary"
  | notText => "Input should be a valid string"
  | notUnicode => "Input should be a valid string, unable to parse raw data as a unicode string"
  | empty => "String should have at least 1 character"
  | noLocale tag => "Value error, " ++ (Fault.malformedLocale tag).report

def name : SettingProblem → Text
  | notMapping => "model_type"
  | notText => "string_type"
  | notUnicode => "string_unicode"
  | empty => "string_too_short"
  | noLocale _ => "value_error"

end SettingProblem

namespace SettingRefusal

def report (d : Yaml.Document) (r : SettingRefusal) : Text :=
  let place : Text := r.field.elim [] fun s => s ++ "\n"
  place ++ "  " ++ r.problem.message ++ " [type=" ++ r.problem.name ++
    ", input_value=" ++ (d.shown r.value).abridged ++ ", input_type=" ++ d.kind r.value ++ "]"

def reportAll (d : Yaml.Document) (rs : List SettingRefusal) : Text :=
  Numeral.ofInt rs.length ++ " validation error" ++ (if rs.length = 1 then "" else "s") ++ "\n" ++
    List.intercalate "\n" (rs.map (report d))

end SettingRefusal
end Intake
