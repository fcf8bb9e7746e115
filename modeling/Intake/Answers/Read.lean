import Intake.Answers.Basic
import Intake.CalendarDate
import Intake.Currency
import Intake.Long

set_option autoImplicit false

/-!
Typed reading. What is absent, null or of another kind reads as nothing.
-/

namespace Intake

/-- What a typed read finds. -/
inductive Value where
  | text (s : Text)
  | long (n : Int)
  | date (d : CalendarDate)
  | currency (a : Currency)
  | longs (ns : List Int)
  deriving DecidableEq

namespace Answers

def readText (d : Answers) (p : Path) : Option Text := (d.get? p).bind Json.text?

def readLong (d : Answers) (p : Path) : Option Int := (d.get? p).bind Json.int?

/-- A number that is no date's reads as nothing. One that is too long to be written in the fault
breaks the read off. -/
def readDate (d : Answers) (p : Path) : Except Fault (Option CalendarDate) :=
  match d.readLong p with
  | none => .ok none
  | some millis =>
    match CalendarDate.ofEpochMillis millis with
    | .ok date => .ok (some date)
    | .error e => if e.category = .value then .ok none else .error e

def readCurrency (d : Answers) (p : Path) : Option Currency := (d.readLong p).map Currency.mk

def readLongs (d : Answers) (p : Path) : Option (List Int) :=
  match d.get? p with
  | some (.array xs) => xs.mapM Json.int?
  | _ => none

def readShown (d : Answers) (p : Path) : Option Text :=
  match d.readLongs p with
  | some ns => some (Long.listText ns)
  | none => d.readText p

def readScalar (d : Answers) (p : Path) : Storage → Except Fault (Option Value)
  | .string => .ok ((d.readText p).map .text)
  | .long => .ok ((d.readLong p).map .long)
  | .date => (d.readDate p).map (·.map .date)
  | .currencyCents => .ok ((d.readCurrency p).map .currency)
  | .listOfLongs => .ok ((d.readLongs p).map .longs)

end Answers
end Intake
