import Intake.Decimal.Shortest
import Intake.Json.Basic
import Intake.Text.Quoted

set_option autoImplicit false

/-!
Values as they are shown inside messages and logs: texts in quotes, a space behind commas and
colons, and words of their own for null and the truth values.
-/

namespace Intake

/-- Doubles inside messages differ from those in documents in the names of NaN and infinity. -/
def shownLayout : Double.Layout :=
  { nan := "nan", infinity := "inf", lowest := -3, highest := 16, exponentDigits := 2 }

def Atom.shown : Atom → Text
  | .null => "None"
  | .bool true => "True"
  | .bool false => "False"
  | .int n => Numeral.ofInt n
  | .double x => x.written shownLayout
  | .text s => Text.quoted s

namespace Json

mutual

def shown : Json → Text
  | .atom a => a.shown
  | .array xs => "[" ++ List.intercalate ", " (shownItems xs) ++ "]"
  | .object ms => "\x7b" ++ List.intercalate ", " (shownMembers ms) ++ "\x7d"

def shownItems : List Json → List Text
  | [] => []
  | v :: vs => shown v :: shownItems vs

def shownMembers : List (Text × Json) → List Text
  | [] => []
  | (k, v) :: ms => (Text.quoted k ++ ": " ++ shown v) :: shownMembers ms

end

end Json
end Intake
